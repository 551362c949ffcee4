import Sortie.Engine.Callbacks
import Sortie.Lib.Run

/-!
# The raw TCP client

`TcpBenchmarkClientImpl` (engine/source/client/tcp_benchmark_client_impl.cc) keeps a
number of connection slots, each with the connection that carries its messages, the one
that is being opened to replace it, and the ones it replaced that still wait for echoes.

A link is known by its place in the list of all links ever made, so a slot points to its
links as the source does, and a link that was let go of stays where it was. What Envoy
does inside a call is an argument of the call: the events that `connect` raises before it
returns, and whether a connection that is closed with its writes flushed has anything to
flush. `close(NoFlush)` raises the close event before it returns.

`pendingOpens` is an integer here, so that counting it down too often would show.
-/

namespace Sortie.Engine

/-- `Envoy::Network::ConnectionEvent`. -/
inductive ConnectionEvent where
  | connected | connectedZeroRtt | remoteClose | localClose
  deriving DecidableEq, Repr

/-- `Envoy::Network::ConnectionCloseType`, those that are used. -/
inductive ConnectionCloseType where
  | noFlush | flushWrite
  deriving DecidableEq, Repr

namespace TcpBenchmarkClientImpl

/-- `ALL_TCP_COUNTERS`. -/
inductive Counter where
  | connectionsOpened | connectFailures | reconnects | connectionsRotated | messagesSent
  | messagesReceived | deferred | unavailable | connectionClosed | echoMismatch | inflightLost
  | drainIncomplete | writeBlocked
  deriving DecidableEq, Repr

/-- `State`. A retiring link was rotated out; it is open only for its outstanding echoes. -/
inductive State where
  | connecting | opened | retiring | closed
  deriving DecidableEq, Repr

/-- `Role`. -/
inductive Role where
  | active | standby | retiring | none
  deriving DecidableEq, Repr

inductive WaitingFor where
  | nothing | opens | echoes
  deriving DecidableEq, Repr

structure InflightMessage where
  sentAt : Nat
  completionCallback : Nat
  deriving DecidableEq, Repr

/-- `Link`: one connection. -/
structure Link where
  slot : Nat
  state : State := .connecting
  /-- whether this is its slot's first connect, the one `prepare` waits for -/
  initial : Bool := false
  initialPending : Bool := false
  inflight : List InflightMessage := []
  received : List UInt8 := []
  writeBlocked : Bool := false
  sent : Nat := 0
  connectStarted : Nat := 0
  /-- whether its timer is enabled -/
  timer : Bool := false
  deriving DecidableEq, Repr

/-- An enabled retry timer: when it was armed, and for how many milliseconds. -/
structure RetryTimer where
  armedAt : Nat
  delay : Nat
  deriving DecidableEq, Repr

/-- `InitialBackoff`, in milliseconds. -/
def initialBackoff : Nat := 10

/-- `MaxBackoff`, in milliseconds. -/
def maxBackoff : Nat := 1000

/-- `BackoffStartsOverAfter`, in milliseconds. -/
def backoffStartsOverAfter : Nat := 2 * maxBackoff

/-- Times are in nanoseconds. -/
def nsPerMs : Nat := 1000000

/-- `Slot`: a place in the pool. -/
structure Slot where
  active : Option Nat := none
  standby : Option Nat := none
  retiring : List Nat := []
  retryTimer : Option RetryTimer := none
  backoff : Nat := initialBackoff
  /-- when the retry timer last ran -/
  lastRetry : Option Nat := none
  deriving DecidableEq, Repr

/-- What the client is constructed with; it refuses to be without connections, or with ones that may
hold no message. -/
structure Config where
  connections : UInt32
  maxInflightPerConnection : UInt32
  expectEcho : Bool
  maxMessagesPerConnection : UInt32 := 0
  connections_pos : 0 < connections.toNat
  maxInflight_pos : 0 < maxInflightPerConnection.toNat

/-- What Envoy does during one call. -/
structure Network where
  now : Nat := 0
  /-- the cluster has a connection to give -/
  connection : Bool := true
  /-- what `connect` raises before it returns -/
  raises : List ConnectionEvent := []
  /-- a write takes the buffer above its high watermark -/
  blocks : Bool := false
  /-- the connections that have nothing to flush, so that closing them raises the event at once -/
  flushed : Nat → Bool := fun _ => true

/-- A link put in its slot: by `open`, over what was there, or by `promote`, which moves the standby
to the place of the link that retires. The client keeps no such record. -/
inductive Placement where
  | opened (slot : Nat) (role : Role) (before : Option Nat) (link : Nat)
  | promoted (slot : Nat) (retired : Option Nat) (standby : Option (Nat × State))
  deriving DecidableEq, Repr

end TcpBenchmarkClientImpl

open TcpBenchmarkClientImpl in
structure TcpBenchmarkClientImpl where
  config : Config
  counters : Counter → Nat := fun _ => 0
  slots : Nat → Slot := fun _ => {}
  links : List Link := []
  message : List UInt8 := []
  nextSlot : Nat := 0
  pendingOpens : Int := 0
  measureLatencies : Bool := false
  waitingFor : WaitingFor := .nothing
  /-- `dispatcher_.exit()` was called since the wait began -/
  exited : Bool := false
  drainTimer : Bool := false
  finished : Bool := false
  /-- `terminate` is waiting in `finish` -/
  terminating : Bool := false
  /-- `prepare` was called -/
  prepared : Bool := false
  callbacks : Callbacks := {}
  /-- the values of `message_latency_statistic_`, with the link each was recorded for -/
  messageLatencies : List (Nat × Nat) := []
  connectLatencies : List Nat := []
  /-- how many of the successful connects were initial ones; the client does not count them -/
  initialConnects : Nat := 0
  placements : List Placement := []

namespace TcpBenchmarkClientImpl

variable (c : TcpBenchmarkClientImpl)

/-- `counter.inc()`. -/
def inc (k : Counter) : TcpBenchmarkClientImpl :=
  { c with counters := fun k' => if k' = k then c.counters k' + 1 else c.counters k' }

/-- Where there is no link, one that is closed. -/
def link (id : Nat) : Link := c.links.getD id { slot := 0, state := .closed }

def updateLink (id : Nat) (f : Link → Link) : TcpBenchmarkClientImpl :=
  { c with links := c.links.modify id f }

def updateSlot (i : Nat) (f : Slot → Slot) : TcpBenchmarkClientImpl :=
  { c with slots := fun j => if j = i then f (c.slots j) else c.slots j }

/-- `rotationDue`. -/
def rotationDue (l : Link) : Bool :=
  decide (0 < c.config.maxMessagesPerConnection.toNat
    ∧ c.config.maxMessagesPerConnection.toNat ≤ l.sent)

/-- The links of a slot, in the order of `links()`. -/
def Slot.links (s : Slot) : List Nat := s.active.toList ++ s.standby.toList ++ s.retiring

/-- `links()`. -/
def linkIds : List Nat :=
  (List.range c.config.connections.toNat).flatMap (fun i => (c.slots i).links)

/-- `anyInflight`. -/
def anyInflight : Bool := c.linkIds.any (fun id => !(c.link id).inflight.isEmpty)

/-- `maybeExitWaitLoop`. -/
def maybeExitWaitLoop : TcpBenchmarkClientImpl :=
  match c.waitingFor with
  | .opens => if c.pendingOpens = 0 then { c with exited := true } else c
  | .echoes => if c.anyInflight then c else { c with exited := true }
  | .nothing => c

/-- `scheduleRetry`. -/
def scheduleRetry (i : Nat) (now : Nat) : TcpBenchmarkClientImpl :=
  if c.finished || (c.slots i).retryTimer.isSome then c
  else
    let backoff := match (c.slots i).lastRetry with
      | none => (c.slots i).backoff
      | some last =>
        if backoffStartsOverAfter * nsPerMs ≤ now - last then initialBackoff
        else (c.slots i).backoff
    c.updateSlot i (fun s => { s with
      retryTimer := some { armedAt := now, delay := backoff }
      backoff := min (backoff * 2) maxBackoff })

/-- `initialAttemptDone`. -/
def initialAttemptDone (id : Nat) : TcpBenchmarkClientImpl :=
  if (c.link id).initialPending then
    { c.updateLink id (fun l => { l with initialPending := false }) with
      pendingOpens := c.pendingOpens - 1 }
  else c

/-- The oldest message of a link is let go of and its callback invoked. -/
def completeFront (id : Nat) (message : InflightMessage) (success : Bool) :
    TcpBenchmarkClientImpl :=
  let c := c.updateLink id (fun l => { l with inflight := l.inflight.tail })
  { c with callbacks := c.callbacks.invoke message.completionCallback true success }

/-- `completeInflight`. -/
def completeInflight (id : Nat) (success : Bool) : TcpBenchmarkClientImpl :=
  (c.link id).inflight.foldl (fun c message =>
    let c := if success then c else c.inc .inflightLost
    c.completeFront id message success) c

/-- `release`: takes the link out of its slot. -/
def release (id : Nat) : Role × TcpBenchmarkClientImpl :=
  let i := (c.link id).slot
  if (c.slots i).active = some id then
    (.active, c.updateSlot i (fun s => { s with active := none }))
  else if (c.slots i).standby = some id then
    (.standby, c.updateSlot i (fun s => { s with standby := none }))
  else if id ∈ (c.slots i).retiring then
    (.retiring, c.updateSlot i (fun s => { s with retiring := s.retiring.erase id }))
  else (.none, c)

/-- A link that is closed. -/
def Link.shut (l : Link) : Link := { l with state := .closed, timer := false }

/-- The counter for a connection that was closed, unless it was by the client. -/
def countClose (previous : State) : TcpBenchmarkClientImpl :=
  match previous with
  | .connecting => c.inc .connectFailures
  | .opened | .retiring => c.inc .connectionClosed
  | .closed => c

/-- A slot that lost its link connects again. A link closed by `closeLink` was closed before:
whoever closed it decides what follows. -/
def retryAfterClose (previous : State) (role : Role) (i now : Nat) : TcpBenchmarkClientImpl :=
  if previous ≠ .closed ∧ (role = .active ∨ role = .standby) then c.scheduleRetry i now else c

/-- `onEvent`, the cases `RemoteClose` and `LocalClose`. -/
def onClose (id : Nat) (net : Network) : TcpBenchmarkClientImpl :=
  let previous := (c.link id).state
  let c := c.updateLink id Link.shut
  let c := c.initialAttemptDone id
  let c := c.countClose previous
  let c := c.completeInflight id false
  let (role, c) := c.release id
  let c := c.retryAfterClose previous role (c.link id).slot net.now
  c.maybeExitWaitLoop

/-- `connection->close(type)`. -/
def close (id : Nat) (type : ConnectionCloseType) (net : Network) : TcpBenchmarkClientImpl :=
  match type with
  | .noFlush => c.onClose id net
  | .flushWrite => if net.flushed id then c.onClose id net else c

/-- `closeLink`. -/
def closeLink (id : Nat) (type : ConnectionCloseType) (net : Network) : TcpBenchmarkClientImpl :=
  if (c.link id).state = .closed then c
  else
    let c := c.updateLink id Link.shut
    let c := c.initialAttemptDone id
    let c := c.completeInflight id false
    c.close id type net

/-- The link that was replaced retires: it is closed, or has its timer set to wait for its echoes.
-/
def retire (id : Nat) (net : Network) : TcpBenchmarkClientImpl :=
  if (c.link id).state ≠ .opened then c
  else
    let c := c.updateLink id (fun l => { l with state := .retiring })
    if (c.link id).inflight = [] then c.closeLink id .flushWrite net
    else c.updateLink id (fun l => { l with timer := true })

/-- The standby takes over its slot, where no retry is needed any more. -/
def takeOver (i : Nat) : TcpBenchmarkClientImpl :=
  let s := c.slots i
  let placement := Placement.promoted i s.active (s.standby.map (fun id => (id, (c.link id).state)))
  { c with placements := c.placements ++ [placement] }.updateSlot i (fun s => { s with
    active := s.standby
    standby := none
    retryTimer := none })

/-- `promote`. -/
def promote (i : Nat) (net : Network) : TcpBenchmarkClientImpl :=
  let retired := (c.slots i).active
  let c := c.takeOver i
  match retired with
  | none => c.inc .reconnects
  | some id =>
    let c := c.inc .connectionsRotated
    let c := c.updateSlot i (fun s => { s with retiring := s.retiring ++ [id] })
    c.retire id net

/-- A connect that succeeded is counted and timed. -/
def countConnect (initial : Bool) (started now : Nat) : TcpBenchmarkClientImpl :=
  { c.inc .connectionsOpened with
    connectLatencies := c.connectLatencies ++ [now - started]
    initialConnects := if initial then c.initialConnects + 1 else c.initialConnects }

/-- A link that has connected is put to use: the standby of its slot takes over, and any other one
but the first is a reconnect. -/
def putToUse (id i : Nat) (initial : Bool) (net : Network) : TcpBenchmarkClientImpl :=
  if (c.slots i).standby = some id then c.promote i net
  else if initial then c
  else c.inc .reconnects

/-- `onEvent`, the case `Connected`. -/
def onConnected (id : Nat) (net : Network) : TcpBenchmarkClientImpl :=
  if (c.link id).state ≠ .connecting then c
  else
    let l := c.link id
    let c := c.updateLink id (fun l => { l with state := .opened, timer := false })
    let c := c.countConnect l.initial l.connectStarted net.now
    let c := c.initialAttemptDone id
    let c := c.putToUse id l.slot l.initial net
    c.maybeExitWaitLoop

/-- `onEvent`. -/
def onEvent (id : Nat) (event : ConnectionEvent) (net : Network) : TcpBenchmarkClientImpl :=
  match event with
  | .connected => c.onConnected id net
  | .connectedZeroRtt => c
  | .remoteClose | .localClose => c.onClose id net

/-- A new link in its slot. -/
def place (i : Nat) (role : Role) (initial : Bool) (now : Nat) : TcpBenchmarkClientImpl :=
  let id := c.links.length
  let l : Link :=
    { slot := i, initial := initial, initialPending := initial, timer := true
      connectStarted := now }
  let before := if role = .standby then (c.slots i).standby else (c.slots i).active
  let c := { c with
    links := c.links ++ [l]
    pendingOpens := if initial then c.pendingOpens + 1 else c.pendingOpens
    placements := c.placements ++ [Placement.opened i role before id] }
  c.updateSlot i (fun s =>
    if role = Role.standby then { s with standby := some id } else { s with active := some id })

/-- `open`. The link is in its slot before it connects. -/
def openLink (i : Nat) (role : Role) (initial : Bool) (net : Network) : TcpBenchmarkClientImpl :=
  if net.connection then
    net.raises.foldl (fun d event => d.onEvent c.links.length event net)
      (c.place i role initial net.now)
  else (c.inc .connectFailures).scheduleRetry i net.now

/-- `connectNext`. -/
def connectNext (i : Nat) (net : Network) : TcpBenchmarkClientImpl :=
  if c.finished then c
  else match (c.slots i).active with
    | none => if (c.slots i).standby = none then c.openLink i .active false net else c
    | some id =>
      if (c.slots i).standby = none ∧ (c.link id).state = .opened
          ∧ c.rotationDue (c.link id) = true then
        c.openLink i .standby false net
      else c

/-- `onTimer`. -/
def onTimer (id : Nat) (net : Network) : TcpBenchmarkClientImpl :=
  match (c.link id).state with
  | .connecting =>
    let i := (c.link id).slot
    let c := c.inc .connectFailures
    let c := c.closeLink id .noFlush net
    (c.scheduleRetry i net.now).maybeExitWaitLoop
  | .retiring => c.closeLink id .noFlush net
  | .opened | .closed => c

/-- `onEchoMismatch`. -/
def onEchoMismatch (id : Nat) (net : Network) : TcpBenchmarkClientImpl :=
  let c := c.inc .echoMismatch
  let i := (c.link id).slot
  let active := decide ((c.slots i).active = some id)
  let c := c.closeLink id .noFlush net
  let c := if active then c.scheduleRetry i net.now else c
  c.maybeExitWaitLoop

/-- A latency for the statistic, when latencies are measured. -/
def addLatency (id latency : Nat) : TcpBenchmarkClientImpl :=
  if c.measureLatencies then
    { c with messageLatencies := c.messageLatencies ++ [(id, latency)] }
  else c

/-- A rotated connection that has no echo to wait for is closed. -/
def closeIfDone (id : Nat) (net : Network) : TcpBenchmarkClientImpl :=
  if (c.link id).state = .retiring ∧ (c.link id).inflight = [] then c.closeLink id .flushWrite net
  else c

/-- `onEcho`. -/
def onEcho (id : Nat) (bytes : List UInt8) (net : Network) : TcpBenchmarkClientImpl :=
  match (c.link id).inflight with
  | [] => c.onEchoMismatch id net
  | message :: _ =>
    if bytes ≠ c.message then c.onEchoMismatch id net
    else
      let c := c.inc .messagesReceived
      let c := c.completeFront id message true
      let c := c.addLatency id (net.now - message.sentAt)
      let c := c.closeIfDone id net
      c.maybeExitWaitLoop

/-- The loop of `onData`. The message is not empty, so a turn for every byte is enough. -/
def matchEchoes (id : Nat) (net : Network) : Nat → TcpBenchmarkClientImpl → TcpBenchmarkClientImpl
  | 0, c => c
  | turns + 1, c =>
    let l := c.link id
    if c.message.length ≤ l.received.length ∧ (l.state = .opened ∨ l.state = .retiring) then
      let bytes := l.received.take c.message.length
      let c := c.updateLink id (fun l => { l with received := l.received.drop c.message.length })
      matchEchoes id net turns (c.onEcho id bytes net)
    else c

/-- `onData`. -/
def onData (id : Nat) (data : List UInt8) (net : Network) : TcpBenchmarkClientImpl :=
  if !c.config.expectEcho || ((c.link id).state ≠ .opened && (c.link id).state ≠ .retiring) then c
  else
    let c := c.updateLink id (fun l => { l with received := l.received ++ data })
    matchEchoes id net (c.link id).received.length c

/-- `onWriteBlocked`. -/
def onWriteBlocked (id : Nat) (blocked : Bool) : TcpBenchmarkClientImpl :=
  let c := if blocked && !(c.link id).writeBlocked then c.inc .writeBlocked else c
  c.updateLink id (fun l => { l with writeBlocked := blocked })

/-- A message that cannot be sent is dropped, and completes when the dispatcher gets to it. -/
def drop (k : Counter) (callback : Nat) : TcpBenchmarkClientImpl :=
  let c := c.inc k
  { c with callbacks := c.callbacks.post callback true false }

/-- A message is written on a link, which may block it; without echoes it completes when the
dispatcher gets to it. -/
def write (id callback : Nat) (net : Network) : TcpBenchmarkClientImpl :=
  let c := if c.config.expectEcho then
      c.updateLink id (fun l => { l with
        inflight := l.inflight ++ [{ sentAt := net.now, completionCallback := callback }] })
    else { c with callbacks := c.callbacks.post callback true true }
  let c := c.inc .messagesSent
  let c := if net.blocks then c.onWriteBlocked id true else c
  c.updateLink id (fun l => { l with sent := l.sent + 1 })

/-- `tryStartRequest` once a link can take the message. Starting the rotation comes last: a
replacement that connects at once retires the link here. -/
def send (i id callback : Nat) (net : Network) : TcpBenchmarkClientImpl :=
  let c := c.write id callback net
  if c.rotationDue (c.link id) && (c.slots i).retryTimer.isNone then c.connectNext i net else c

/-- `tryStartRequest`; it always answers that the message was started. -/
def tryStartRequest (net : Network) : TcpBenchmarkClientImpl :=
  let i := c.nextSlot
  let callback := c.callbacks.calls
  let c := { c with
    nextSlot := (i + 1) % c.config.connections.toNat
    callbacks := c.callbacks.give }
  match (c.slots i).active with
  | none => c.drop .unavailable callback
  | some id =>
    let l := c.link id
    if l.state ≠ .opened then c.drop .unavailable callback
    else if l.writeBlocked || c.config.maxInflightPerConnection.toNat ≤ l.inflight.length then
      c.drop .deferred callback
    else c.send i id callback net

/-- The first connects of all slots. -/
def openAll (nets : Nat → Network) : TcpBenchmarkClientImpl :=
  (List.range c.config.connections.toNat).foldl (fun c i => c.openLink i .active true (nets i)) c

/-- `prepare`, as far as the wait for the first connects; it aborts on an echo that is empty. -/
def prepare (message : List UInt8) (nets : Nat → Network) : Option TcpBenchmarkClientImpl :=
  if c.config.expectEcho ∧ message = [] then none
  else
    let c := { c with message := message, prepared := true }.openAll nets
    if 0 < c.pendingOpens then some { c with waitingFor := .opens, exited := false } else some c

/-- The end of `finish`: what the drain window did not bring is lost, and the links are closed. -/
def closeAll (net : Network) : TcpBenchmarkClientImpl :=
  c.linkIds.foldl (fun c id =>
    let c := if (c.link id).inflight.isEmpty then c else c.inc .drainIncomplete
    c.closeLink id .flushWrite net) c

/-- From here on nothing is opened, and retries are off. -/
def stopOpening : TcpBenchmarkClientImpl :=
  { c with
    finished := true
    slots := fun i => { c.slots i with retryTimer := none } }

/-- Connects that are still under way are dropped. -/
def dropConnects (net : Network) : TcpBenchmarkClientImpl :=
  c.linkIds.foldl (fun c id =>
    if (c.link id).state = .connecting then c.closeLink id .noFlush net else c) c

/-- `finish`, as far as the wait for echoes. -/
def finish (net : Network) : TcpBenchmarkClientImpl :=
  if c.finished then c
  else
    let c := c.stopOpening.dropConnects net
    if c.anyInflight then { c with waitingFor := .echoes, exited := false, drainTimer := true }
    else c.closeAll net

/-- What `terminate` does after `finish`. -/
def cutFlushes (net : Network) : TcpBenchmarkClientImpl :=
  let c := { c with measureLatencies := false }
  c.linkIds.foldl (fun c id => c.close id .noFlush net) c

/-- `terminate`. -/
def terminate (net : Network) : TcpBenchmarkClientImpl :=
  let c := c.finish net
  if c.waitingFor = .echoes then { c with terminating := true } else c.cutFlushes net

/-- The dispatcher that `finish` runs has returned. -/
def finishWait (net : Network) : TcpBenchmarkClientImpl :=
  let c := { c with drainTimer := false, waitingFor := .nothing }
  let c := c.closeAll net
  if c.terminating then { c with terminating := false }.cutFlushes net else c

/-! ## Histories -/

/-- One call. -/
inductive Event where
  | setShouldMeasureLatencies (measureLatencies : Bool)
  | prepare (message : List UInt8) (nets : Nat → Network)
  /-- the dispatcher that `prepare` runs returns to it -/
  | prepareWait
  | tryStartRequest (net : Network)
  | onEvent (id : Nat) (event : ConnectionEvent) (net : Network)
  | onData (id : Nat) (data : List UInt8) (net : Network)
  | onWriteBlocked (id : Nat) (blocked : Bool)
  | timer (id : Nat) (net : Network)
  | retryTimer (i : Nat) (net : Network)
  /-- the dispatcher runs a posted callback -/
  | posted
  | finish (net : Network)
  | drainTimer
  /-- the dispatcher that `finish` runs returns to it -/
  | finishWait (net : Network)
  | terminate (net : Network)

/-- What a call leads to. The worker prepares the client once, and before it finishes it; a timer
fires when it is enabled, and a dispatcher returns when it was told to exit. -/
def step : Event → Option TcpBenchmarkClientImpl
  | .setShouldMeasureLatencies b => some { c with measureLatencies := b }
  | .prepare message nets => if c.prepared || c.finished then none else c.prepare message nets
  | .prepareWait =>
    if c.waitingFor = .opens ∧ c.exited = true then some { c with waitingFor := .nothing } else none
  | .tryStartRequest net => some (c.tryStartRequest net)
  | .onEvent id event net => if id < c.links.length then some (c.onEvent id event net) else none
  | .onData id data net => if id < c.links.length then some (c.onData id data net) else none
  | .onWriteBlocked id blocked =>
    if id < c.links.length then some (c.onWriteBlocked id blocked) else none
  | .timer id net =>
    if (c.link id).timer then
      some ((c.updateLink id (fun l => { l with timer := false })).onTimer id net)
    else none
  | .retryTimer i net =>
    match (c.slots i).retryTimer with
    | none => none
    | some t =>
      if t.armedAt + t.delay * nsPerMs ≤ net.now then
        some ((c.updateSlot i (fun s => { s with
          retryTimer := none
          lastRetry := some net.now })).connectNext i net)
      else none
  | .posted =>
    match c.callbacks.runPosted with
    | none => none
    | some b => some { c with callbacks := b }
  | .finish net => if c.waitingFor = .nothing then some (c.finish net) else none
  | .drainTimer =>
    if c.drainTimer then some { c with drainTimer := false, exited := true } else none
  | .finishWait net =>
    if c.waitingFor = .echoes ∧ c.exited = true then some (c.finishWait net) else none
  | .terminate net => if c.waitingFor = .nothing then some (c.terminate net) else none

/-- What the calls `es` lead to, on a new client. -/
def Reaches (config : Config) (es : List Event) (c : TcpBenchmarkClientImpl) : Prop :=
  Lts.Run (fun a e b => step a e = some b) { config := config } es c

end TcpBenchmarkClientImpl

end Sortie.Engine
