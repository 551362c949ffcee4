import Sortie.Proof.OptionsImpl

/-!
# What the constructor of the options reads

`construct` is a chain of steps that each look at a part of the message. Here the chain
is taken apart once: every step is written as an update of the members it decides, so that
`reading` can say of each member what it ends up as. `construct_ok_iff` says which messages
are accepted.
-/

namespace Sortie.Engine.OptionsImpl

open Proto Api Checks

namespace Members

variable (m : Members) (o : CommandLineOptions)

/-! ## The steps as updates -/

theorem readTarget_eq : m.readTarget o =
    { m with
      uri := match o.uri with
        | some (.uri u) => some u
        | _ => m.uri
      tcp := match o.uri with
        | some (.uri u) => isTcpUri u
        | _ => m.tcp
      udp := match o.uri with
        | some (.uri u) => isUdpUri u
        | _ => m.udp
      multiTargetPath := match o.uri with
        | some (.multiTarget t) => t.path.getD m.multiTargetPath
        | _ => m.multiTargetPath
      multiTargetUseHttps := match o.uri with
        | some (.multiTarget t) => t.useHttps.getD m.multiTargetUseHttps
        | _ => m.multiTargetUseHttps
      multiTargetEndpoints := match o.uri with
        | some (.multiTarget t) => m.multiTargetEndpoints ++ t.endpoints
        | _ => m.multiTargetEndpoints } := by
  unfold readTarget
  rcases o.uri with _ | u | t
  · simp
  · rfl
  · rfl

theorem readGrpcStream_eq : m.readGrpcStream o =
    { m with
      streams := (o.grpcStream.bind (·.streams)).getD m.streams
      maxInflightPerStream :=
        (o.grpcStream.bind (·.maxInflightPerStream)).getD m.maxInflightPerStream
      streamDrainDuration := ((o.grpcStream.bind (·.drainDuration)).map
        durationToNanoseconds).getD m.streamDrainDuration } := by
  unfold readGrpcStream
  cases o.grpcStream <;> rfl

theorem readTcp_eq : m.readTcp o =
    { m with
      tcpConnections := (o.tcp.bind (·.connections)).getD m.tcpConnections
      tcpMaxInflight := (o.tcp.bind (·.maxInflightPerConnection)).getD m.tcpMaxInflight
      tcpExpectEcho := (o.tcp.bind (·.expectEcho)).getD m.tcpExpectEcho
      tcpMaxMessages := (o.tcp.bind (·.maxMessagesPerConnection)).getD m.tcpMaxMessages
      streamDrainDuration := ((o.tcp.bind (·.drainDuration)).map
        durationToNanoseconds).getD m.streamDrainDuration } := by
  unfold readTcp
  cases o.tcp <;> rfl

theorem readUdp_eq : m.readUdp o =
    { m with
      udpMaxInflight := (o.udp.bind (·.maxInflight)).getD m.udpMaxInflight
      udpTimeout := ((o.udp.bind (·.timeout)).map durationToNanoseconds).getD m.udpTimeout } := by
  unfold readUdp
  cases o.udp <;> rfl

theorem readWebsocket_eq : m.readWebsocket o =
    { m with
      websocket := m.websocket || o.websocket.isSome
      websocketBinary := match o.websocket with
        | some s => s.binary.getD false
        | none => m.websocketBinary
      streams := (o.websocket.bind (·.streams)).getD m.streams
      maxInflightPerStream :=
        (o.websocket.bind (·.maxInflightPerStream)).getD m.maxInflightPerStream
      streamDrainDuration := ((o.websocket.bind (·.drainDuration)).map
        durationToNanoseconds).getD m.streamDrainDuration } := by
  unfold readWebsocket
  cases o.websocket with
  | none => simp
  | some s => simp

theorem defaultProtocol_eq : m.defaultProtocol o =
    { m with
      protocol := if m.grpcEnabled && o.protocol.isNone then .http2 else m.protocol } := by
  unfold defaultProtocol
  split <;> rfl

theorem readRequest_eq : m.readRequest o =
    { m with
      requestHeaders := match o.requestOptions with
        | some (.requestOptions r) =>
          m.requestHeaders ++ r.requestHeaders.map fun h => h.key ++ ":" ++ h.value
        | _ => m.requestHeaders
      requestMethod := match o.requestOptions with
        | some (.requestOptions r) =>
          if r.requestMethod ≠ .methodUnspecified then r.requestMethod
          else if m.grpcEnabled then .post
          else m.requestMethod
        | _ => if m.grpcEnabled then .post else m.requestMethod
      requestBodySize := match o.requestOptions with
        | some (.requestOptions r) => r.requestBodySize.getD m.requestBodySize
        | _ => m.requestBodySize
      requestBody := match o.requestOptions with
        | some (.requestOptions r) => r.requestBody
        | _ => m.requestBody
      requestSource := match o.requestOptions with
        | some (.requestSource uri) => uri
        | _ => m.requestSource
      requestSourcePluginConfig := match o.requestOptions with
        | some (.requestSourcePluginConfig config) => some config
        | _ => m.requestSourcePluginConfig } := by
  unfold readRequest
  have hpost : ∀ m' : Members, m'.grpcEnabled = m.grpcEnabled →
      (if m'.grpcEnabled then { m' with requestMethod := .post } else m')
        = { m' with requestMethod := if m.grpcEnabled then .post else m'.requestMethod } := by
    intro m' h
    rw [h]
    split <;> rfl
  rcases o.requestOptions with _ | r | uri | config
  · exact hpost m rfl
  · rfl
  · exact hpost { m with requestSource := uri } rfl
  · exact hpost { m with requestSourcePluginConfig := some config } rfl

theorem raisePendingRequestsForStreams_eq : m.raisePendingRequestsForStreams =
    { m with
      maxPendingRequests :=
        if m.streamModeEnabled && decide (m.maxPendingRequests < m.streamsPerWorker) then
          m.streamsPerWorker
        else m.maxPendingRequests } := by
  unfold raisePendingRequestsForStreams
  split <;> rfl

/-- Bursts and jitter do not go with a rate limiter of their own. -/
def LimiterAlone : Prop :=
  o.rateLimiterPluginConfig.isSome = true →
    o.burstSize.getD 0 = 0 ∧ ∀ d, o.jitterUniform = some d → d.seconds = 0 ∧ d.nanos = 0

theorem readLimiter_ok_iff {m' : Members} : m.readLimiter o = .ok m' ↔
    LimiterAlone o ∧ m' = { m with
      rateLimiterPluginConfig := o.rateLimiterPluginConfig.or m.rateLimiterPluginConfig } := by
  unfold readLimiter LimiterAlone
  cases o.rateLimiterPluginConfig with
  | none =>
    exact ⟨fun h => ⟨nofun, (Except.ok.inj h).symm⟩, fun ⟨_, h⟩ => congrArg Except.ok h.symm⟩
  | some config =>
    have hjitter : (o.jitterUniform.all fun d => d.seconds == 0 && d.nanos == 0) = true ↔
        ∀ d, o.jitterUniform = some d → d.seconds = 0 ∧ d.nanos = 0 := by
      cases o.jitterUniform <;> simp
    rw [bind_ok_iff, exists_unit_ok_iff, require_ok_iff, bind_ok_iff, exists_unit_ok_iff,
      require_ok_iff, hjitter, beq_iff_eq]
    constructor
    · rintro ⟨hburst, hnone, h⟩
      exact ⟨fun _ => ⟨hburst, hnone⟩, (Except.ok.inj h).symm⟩
    · rintro ⟨halone, rfl⟩
      exact ⟨(halone rfl).1, (halone rfl).2, rfl⟩

/-- Where the steps end when none of them fails. -/
def ofMessage : Members :=
  let m := ((beforeTunnel o).readRequest o).raisePendingRequestsForStreams
  let m := { m with
    rateLimiterPluginConfig := o.rateLimiterPluginConfig.or m.rateLimiterPluginConfig }
  ((m.readLimits o).readPredicates o).readRest o

/-! ## The members a message is read as -/

/-- The streams a message asks for. -/
def requestedStreams : UInt32 :=
  (o.websocket.bind (·.streams)).getD ((o.grpcStream.bind (·.streams)).getD 20)

/-- The mode of a message makes calls, of either kind. -/
def asksGrpc : Bool := o.grpcMode.getD .none != .none

/-- The mode of a message keeps streams open, of either kind. -/
def asksStreams : Bool := o.grpcMode.getD .none == .bidiStream || o.websocket.isSome

/-- The pending requests that the streams of a message need. -/
def neededPending : UInt32 :=
  let m : Members := { concurrency := o.concurrency.getD "1", streams := requestedStreams o }
  if asksStreams o && decide (0 < m.streamsPerWorker) then m.streamsPerWorker else 0

/-- Each member by the part of the message that decides it. -/
def reading : Members where
  requestsPerSecond := o.requestsPerSecond.getD 5
  connections := o.connections.getD 100
  duration := match o.durationOptions with
    | some (.duration d) => toUInt32 d.seconds
    | _ => 5
  timeout := match o.timeout with
    | some d => toUInt32 d.seconds
    | none => 30
  uri := match o.uri with
    | some (.uri u) => some u
    | _ => none
  h2 := match o.protocol with
    | some (.h2 b) => b
    | _ => false
  protocol := if asksGrpc o && o.protocol.isNone then .http2 else match o.protocol with
    | some (.protocol p) => p
    | _ => .http1
  http3ProtocolOptions := o.http3ProtocolOptions
  concurrency := o.concurrency.getD "1"
  verbosity := o.verbosity.getD .warn
  outputFormat := o.outputFormat.getD .json
  prefetchConnections := o.prefetchConnections.getD false
  burstSize := o.burstSize.getD 0
  addressFamily := o.addressFamily.getD .auto
  requestMethod := match o.requestOptions with
    | some (.requestOptions r) =>
      if r.requestMethod ≠ .methodUnspecified then r.requestMethod
      else if asksGrpc o then .post else .get
    | _ => if asksGrpc o then .post else .get
  requestHeaders := match o.requestOptions with
    | some (.requestOptions r) => r.requestHeaders.map fun h => h.key ++ ":" ++ h.value
    | _ => []
  requestBodySize := match o.requestOptions with
    | some (.requestOptions r) => r.requestBodySize.getD 0
    | _ => 0
  requestBody := match o.requestOptions with
    | some (.requestOptions r) => r.requestBody
    | _ => []
  grpcMode := o.grpcMode.getD .none
  websocket := o.websocket.isSome
  websocketBinary := match o.websocket with
    | some s => s.binary.getD false
    | none => false
  tcp := match o.uri with
    | some (.uri u) => isTcpUri u
    | _ => false
  tcpConnections := (o.tcp.bind (·.connections)).getD 1
  tcpMaxInflight := (o.tcp.bind (·.maxInflightPerConnection)).getD 256
  tcpExpectEcho := (o.tcp.bind (·.expectEcho)).getD true
  tcpMaxMessages := (o.tcp.bind (·.maxMessagesPerConnection)).getD 0
  udp := match o.uri with
    | some (.uri u) => isUdpUri u
    | _ => false
  udpMaxInflight := (o.udp.bind (·.maxInflight)).getD 256
  udpTimeout := ((o.udp.bind (·.timeout)).map durationToNanoseconds).getD (.ofSeconds 1)
  streams := requestedStreams o
  maxInflightPerStream := (o.websocket.bind (·.maxInflightPerStream)).getD
    ((o.grpcStream.bind (·.maxInflightPerStream)).getD 256)
  streamDrainDuration := ((o.websocket.bind (·.drainDuration)).map durationToNanoseconds).getD
    (((o.tcp.bind (·.drainDuration)).map durationToNanoseconds).getD
      (((o.grpcStream.bind (·.drainDuration)).map durationToNanoseconds).getD
        (.clamp 500000000)))
  tlsContext := o.tlsContext.getD {}
  upstreamBindConfig := o.upstreamBindConfig
  transportSocket := o.transportSocket
  requestSourcePluginConfig := match o.requestOptions with
    | some (.requestSourcePluginConfig config) => some config
    | _ => none
  rateLimiterPluginConfig := o.rateLimiterPluginConfig
  maxPendingRequests := o.maxPendingRequests.getD (neededPending o)
  maxActiveRequests := o.maxActiveRequests.getD 100
  maxRequestsPerConnection := o.maxRequestsPerConnection.getD 4294937295
  maxConcurrentStreams := o.maxConcurrentStreams.getD 2147483647
  sequencerIdleStrategy := o.sequencerIdleStrategy.getD .spin
  requestSource := match o.requestOptions with
    | some (.requestSource uri) => uri
    | _ => ""
  trace := o.trace.getD ""
  h1ConnectionReuseStrategy := o.experimentalH1ConnectionReuseStrategy.getD .mru
  terminationPredicates := PredicateMap.assignAll [] o.terminationPredicates
  failurePredicates := PredicateMap.assignAll
    (if o.noDefaultFailurePredicates.getD false || !o.failurePredicates.isEmpty then []
      else ({} : Members).failurePredicates) o.failurePredicates
  noDefaultFailurePredicates := o.noDefaultFailurePredicates.getD false
  openLoop := o.openLoop.getD false
  jitterUniform := (o.jitterUniform.map durationToNanoseconds).getD 0
  nighthawkService := o.nighthawkService.getD ""
  h2UseMultipleConnections := o.experimentalH2UseMultipleConnections.getD false
  multiTargetEndpoints := match o.uri with
    | some (.multiTarget t) => t.endpoints
    | _ => []
  multiTargetPath := match o.uri with
    | some (.multiTarget t) => t.path.getD ""
    | _ => ""
  multiTargetUseHttps := match o.uri with
    | some (.multiTarget t) => t.useHttps.getD false
    | _ => false
  labels := o.labels
  simpleWarmup := o.simpleWarmup.getD false
  noDuration := match o.durationOptions with
    | some (.noDuration b) => b
    | _ => false
  statsSinks := o.statsSinks
  statsFlushInterval := match o.statsFlushInterval with
    | some (.seconds n) => n
    | _ => 5
  statsFlushIntervalDuration := match o.statsFlushInterval with
    | some (.duration d) => d
    | _ => durationOfSeconds 0
  latencyResponseHeaderName := o.latencyResponseHeaderName.getD ""
  scheduledStart := o.scheduledStart.map startTime
  executionId := o.executionId
  userDefinedOutputPluginConfigs := o.userDefinedPluginConfigs

/-- The steps, one after the other, read every member as `reading` says. -/
theorem ofMessage_eq : ofMessage o = reading o := by
  simp only [ofMessage, beforeTunnel, readTarget_eq, readGrpcStream_eq, readTcp_eq, readUdp_eq,
    readWebsocket_eq, defaultProtocol_eq, readRequest_eq, raisePendingRequestsForStreams_eq,
    readLimits, readPredicates, readRest, readLoad, readProtocol, readProcess]
  congr 1 <;> exact Option.or_none

/-! ## Acceptance -/

/-- What `validate` checks, part by part. -/
structure Valid (env : Outside) (m : Members) : Prop where
  body : m.requestBody = [] ∨ m.requestBodySize = 0
  grpc : m.grpcEnabled = true → m.validateGrpc = .ok ()
  websocket : m.websocket = true → m.validateWebsocket = .ok ()
  streams : m.streamModeEnabled = true → m.validateStreams = .ok ()
  single : m.h2UseMultipleConnections = false
  concurrency : checkConcurrency m.shape = .ok ()
  source : m.validateRequestSource env = .ok ()
  target : m.validateTarget env = .ok ()
  message : m.validateMessage env = .ok ()

theorem validate_ok_iff {env : Outside} : m.validate env = .ok () ↔ Valid env m := by
  unfold validate check
  simp only [bind_ok_iff, exists_unit_ok_iff, exists_const, require_ok_iff, onlyIf_ok_iff,
    mapError_ok_iff, Bool.or_eq_true, List.isEmpty_iff, beq_iff_eq, Bool.not_eq_true']
  constructor
  · rintro ⟨h1, h2, h3, h4, h5, h6, h7, h8, h9⟩
    exact ⟨h1, h2, h3, h4, h5, h6, h7, h8, h9⟩
  · rintro ⟨h1, h2, h3, h4, h5, h6, h7, h8, h9⟩
    exact ⟨h1, h2, h3, h4, h5, h6, h7, h8, h9⟩

end Members

/-- **Options without a tunnel are built, or refused with an exception that `Ends` lists.** -/
theorem construct_ends {env : Outside} {o : CommandLineOptions} (h : o.tunnelOptions = none) :
    FailsWith (Ends env (Members.reading o)) (construct env o) := by
  rw [← Members.ofMessage_eq]
  unfold construct Members.readTunnel
  rw [h]
  let m := ((Members.beforeTunnel o).readRequest o).raisePendingRequestsForStreams
  show FailsWith _ (m.readLimiter o >>= _)
  cases hl : m.readLimiter o with
  | error e => exact FailsWith.error (Members.readLimiter_ends e hl)
  | ok m =>
    obtain ⟨-, rfl⟩ := (Members.readLimiter_ok_iff _ o).mp hl
    exact Members.validate_ends.bind fun _ => FailsWith.ok _

/-- **Which messages are accepted, and what they are read as.** -/
theorem construct_ok_iff {env : Outside} {o : CommandLineOptions} {m : Members} :
    construct env o = .ok m ↔ o.tunnelOptions = none ∧ Members.LimiterAlone o
      ∧ m = Members.reading o ∧ Members.Valid env m := by
  rw [← Members.ofMessage_eq]
  constructor
  · intro h
    have ht := tunnelOptions_of_construct h
    obtain ⟨m₁, h1, h⟩ := bind_ok_iff.mp h
    obtain ⟨m₂, h2, h⟩ := bind_ok_iff.mp h
    obtain ⟨_, hv, h⟩ := bind_ok_iff.mp h
    cases h
    unfold Members.readTunnel at h1
    rw [ht] at h1
    cases h1
    obtain ⟨halone, rfl⟩ := (Members.readLimiter_ok_iff _ o).mp h2
    exact ⟨ht, halone, rfl, (Members.validate_ok_iff _).mp hv⟩
  · rintro ⟨ht, halone, rfl, hv⟩
    refine bind_ok_iff.mpr ⟨Members.beforeTunnel o, ?_, bind_ok_iff.mpr
      ⟨_, (Members.readLimiter_ok_iff _ o).mpr ⟨halone, rfl⟩, bind_ok_iff.mpr
        ⟨(), (Members.validate_ok_iff _).mpr hv, rfl⟩⟩⟩
    unfold Members.readTunnel
    rw [ht]

end Sortie.Engine.OptionsImpl
