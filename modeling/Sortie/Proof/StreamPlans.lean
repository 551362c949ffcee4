import Sortie.Proof.StreamOptions

/-!
# Which accepted plans the engine refuses in the streaming modes

`validateWebSocket` and `validateGrpc` say that they check what the engine would
otherwise reject at run time. They check that the streams are a multiple of the workers.
The engine also wants the workers to fit an `int`, the streams of a worker to fit its
active requests, which a plan cannot set, and those of a WebSocket worker to fit its
connections, which a plan can set too low.

A request is followed from the scenario through `options`, like its shape was: only the
steps that choose a mode touch the part that the engine's checks on streams read.
-/

namespace Sortie.Proof

open Proto Api Plan Compile Checks Engine
open Engine.OptionsImpl.Members (StreamsFit reading requestedStreams)

variable {F : Type} {go : Go F}
variable {s : Scenario} {o : CommandLineOptions} {rate : UInt32} {dur ramp : Span} {p p' : Plan}
  {e : Execution} {pool : Pool}
variable {w : Nat}

/-! ## The part of a request that the checks read -/

/-- What the engine's checks on streams read, apart from the rate. -/
@[ext] structure StreamPart where
  websocket : Option WebSocketOptions
  grpcStream : Option GrpcStreamOptions
  connections : Option UInt32
  concurrency : Option String
  maxActiveRequests : Option UInt32
  userDefinedPluginConfigs : List TypedExtensionConfig
  simpleWarmup : Option Bool

def streamPartOf (o : CommandLineOptions) : StreamPart where
  websocket := o.websocket
  grpcStream := o.grpcStream
  connections := o.connections
  concurrency := o.concurrency
  maxActiveRequests := o.maxActiveRequests
  userDefinedPluginConfigs := o.userDefinedPluginConfigs
  simpleWarmup := o.simpleWarmup

/-- The streams block a grpc block compiles to. -/
def grpcStreamOf (g : Grpc) : Option GrpcStreamOptions :=
  if g.streams.isSome || g.maxInflightPerStream.isSome || g.drainDuration.isSome then
    some { streams := g.streams, maxInflightPerStream := g.maxInflightPerStream
           drainDuration := g.drainDuration.map ParsedDuration.toDuration }
  else none

/-- The block a websocket block compiles to. -/
def websocketOf (w : WebSocket) : WebSocketOptions where
  streams := w.streams
  maxInflightPerStream := w.maxInflightPerStream
  drainDuration := w.drainDuration.map ParsedDuration.toDuration
  binary := if w.binary then some true else none

/-- What a scenario without a template, and with a target that is not raw, compiles to. -/
def compiledStreamPart (s : Scenario) : StreamPart where
  websocket := s.websocket.map websocketOf
  grpcStream := if s.websocket.isSome then none else s.grpc.bind grpcStreamOf
  connections := s.connections.or (s.websocket.bind fun w => websocketConnections s w {})
  concurrency := if s.concurrency = "" then none else some s.concurrency
  maxActiveRequests := none
  userDefinedPluginConfigs := []
  simpleWarmup := none

theorem streamPartOf_setModes (hraw : isRaw s.target = false)
    (ho : streamPartOf o = streamPartOf {}) :
    streamPartOf (setLimits s (setWebsocket s (setTcp s (setUdp s (setGrpc s o)))))
      = compiledStreamPart s := by
  have hudp : isUdpTarget s.target = false := (Bool.or_eq_false_iff.mp hraw).1
  have htcp : isTcpTarget s.target = false := (Bool.or_eq_false_iff.mp hraw).2
  obtain ⟨h1, h2, h3, h4, h5, h6, h7⟩ := StreamPart.mk.inj ho
  unfold setTcp setUdp
  rw [hudp, htcp]
  -- the two blocks decide everything that is left
  cases hws : s.websocket <;> cases hg : s.grpc <;>
    simp [streamPartOf, compiledStreamPart, setLimits, setWebsocket, setGrpc, grpcStreamOf,
      websocketOf, websocketConnections, *]

/-- **What the checks on streams read of a compiled request.** -/
theorem options_streamPart {id : String} (htemplate : s.nighthawkTemplate = none)
    (hraw : isRaw s.target = false) (h : options go s rate dur ramp id = .ok o) :
    streamPartOf o = compiledStreamPart s := by
  obtain ⟨protocol, context, request, sinks, interval, rfl, -, -⟩ := options_ok h
  unfold plainOptions template
  rw [htemplate]
  exact streamPartOf_setModes hraw rfl

/-- A request that the scenario shapes comes from no plugin. -/
theorem options_request {id : String} (hshapes : shapesRequest s = true)
    (h : options go s rate dur ramp id = .ok o) :
    ∃ r, o.requestOptions = some (.requestOptions r) := by
  obtain ⟨protocol, context, request, sinks, interval, rfl, hrequest, -⟩ := options_ok h
  exact hrequest hshapes

/-! ## What the plan has checked -/

/-- The streams a scenario asks for; 20 is the engine's default. -/
def planStreams (s : Scenario) : UInt32 :=
  match s.websocket with
  | some w => w.streams.getD 20
  | none => (s.grpc.bind Grpc.streams).getD 20

/-- The unanswered messages a scenario allows on a stream; 256 is the engine's default. -/
def planInflight (s : Scenario) : UInt32 :=
  match s.websocket with
  | some w => w.maxInflightPerStream.getD 256
  | none => (s.grpc.bind Grpc.maxInflightPerStream).getD 256

theorem grpcStreamOf_fields (g : Grpc) : (grpcStreamOf g).bind (·.streams) = g.streams
    ∧ (grpcStreamOf g).bind (·.maxInflightPerStream) = g.maxInflightPerStream := by
  unfold grpcStreamOf
  split
  · exact ⟨rfl, rfl⟩
  · rename_i hnone
    simp only [Bool.or_eq_true, not_or, Bool.not_eq_true, Option.isSome_eq_false_iff,
      Option.isNone_iff_eq_none] at hnone
    rw [hnone.1.1, hnone.1.2]
    exact ⟨rfl, rfl⟩

theorem planStreams_compiled (s : Scenario) :
    ((compiledStreamPart s).websocket.bind (·.streams)).getD
        (((compiledStreamPart s).grpcStream.bind (·.streams)).getD 20) = planStreams s
      ∧ ((compiledStreamPart s).websocket.bind (·.maxInflightPerStream)).getD
        (((compiledStreamPart s).grpcStream.bind (·.maxInflightPerStream)).getD 256)
          = planInflight s := by
  unfold compiledStreamPart planStreams planInflight
  cases s.websocket with
  | some w => exact ⟨rfl, rfl⟩
  | none =>
    cases s.grpc with
    | none => exact ⟨rfl, rfl⟩
    | some g =>
      obtain ⟨hstreams, hinflight⟩ := grpcStreamOf_fields g
      exact ⟨congrArg (Option.getD · 20) hstreams, congrArg (Option.getD · 256) hinflight⟩

theorem exists_variant (s : Scenario) : ∃ v ∈ variants s,
    v.websocket = s.websocket ∧ v.grpc = s.grpc ∧ v.concurrency = s.concurrency := by
  unfold variants
  split
  · exact ⟨s, List.mem_singleton.mpr rfl, rfl, rfl, rfl⟩
  · rename_i hne
    obtain ⟨t, ts, hts⟩ := List.exists_cons_of_ne_nil (fun h => hne (List.isEmpty_iff.mpr h))
    exact ⟨variant s t, List.mem_map_of_mem (by rw [hts]; exact List.mem_cons_self), rfl, rfl, rfl⟩

theorem atLeastOne_eq_nil {field : String} {n : Option UInt32} (h : atLeastOne field n = [])
    {d : UInt32} (hd : 0 < d.toNat) : 0 < (n.getD d).toNat := by
  unfold atLeastOne rule at h
  cases n with
  | none => exact hd
  | some n =>
    simp only [Option.all_some, decide_eq_true_eq, ite_eq_left_iff, reduceCtorEq, imp_false,
      not_not] at h
    exact Nat.lt_of_lt_of_le Nat.zero_lt_one (UInt32.le_iff_toNat_le.mp h)

/-- The check on streams that the two modes share, by what it means for the workers. -/
theorem dvd_of_validateStreams {what field : String} {streams : Option UInt32}
    (hw : workersPerBackend s = .ok w)
    (h : validateStreams what field s.concurrency streams = .ok ()) :
    w ∣ (streams.getD 20).toNat := by
  rcases workersPerBackend_ok hw with ⟨-, rfl⟩ | ⟨-, -, hpos, hparse⟩
  · exact one_dvd _
  · obtain ⟨_, -, h⟩ := bind_ok_iff.mp h
    rw [hparse] at h
    simp only [require_ok_iff, Bool.or_eq_true, beq_iff_eq] at h
    have hdefault : (streams.map UInt32.toNat).getD defaultBidiStreams
        = (streams.getD 20).toNat := by
      cases streams <;> rfl
    rw [hdefault] at h
    rcases h with h | h
    · omega
    · exact Nat.dvd_of_mod_eq_zero h

/-- A block of a merged scenario that fits the schema, since it comes from one that does. -/
theorem violations_of_or {α : Type} {a b : Option α} {f : α → List Violation} {x : α}
    (h : a.or b = some x) (ha : (a.map f).getD [] = []) (hb : (b.map f).getD [] = []) :
    f x = [] := by
  cases a with
  | some a =>
    cases h
    exact ha
  | none =>
    rw [Option.none_or] at h
    rw [h] at hb
    exact hb

/-- **What acceptance says about the streams of a scenario.** -/
theorem parse_streams (hparse : parse go p = .ok p') (hs : s ∈ p'.scenarios)
    (hmode : aggregateRate s = true) (hw : workersPerBackend s = .ok w) :
    w ∣ (planStreams s).toNat ∧ 0 < (planStreams s).toNat ∧ 0 < (planInflight s).toNat := by
  obtain ⟨s₀, -, rfl, hviol, hdviol, hchecked⟩ := parse_scenario hparse hs
  simp only [validateScenario, bind_ok_iff, exists_unit_ok_iff, each_ok_iff,
    mapError_ok_iff] at hchecked
  obtain ⟨-, -, -, -, -, -, -, -, hmodes, -⟩ := hchecked
  obtain ⟨v, hv, hvws, hvgrpc, hvconc⟩ := exists_variant (inheritTargets (defaultsOf p) s₀)
  have hkept : (inheritTargets (defaultsOf p) s₀).websocket = s₀.websocket
      ∧ (inheritTargets (defaultsOf p) s₀).grpc = s₀.grpc
      ∧ (inheritTargets (defaultsOf p) s₀).concurrency = s₀.concurrency := by
    rcases inheritTargets_cases (defaultsOf p) s₀ with h | h <;> rw [h] <;> exact ⟨rfl, rfl, rfl⟩
  rw [hkept.1] at hvws
  rw [hkept.2.1] at hvgrpc
  rw [hkept.2.2] at hvconc
  have hmode_ok : validateModes (defaultsOf p) v = .ok () := hmodes v hv
  simp only [validateModes, bind_ok_iff, exists_unit_ok_iff] at hmode_ok
  obtain ⟨hgrpc_ok, hws_ok, -⟩ := hmode_ok
  -- the merged scenario's blocks and concurrency are the effective ones
  have hws : (merged p s₀).websocket = v.websocket.or (defaultsOf p).websocket := by rw [hvws]; rfl
  have hgrpc : (merged p s₀).grpc = v.grpc.or (defaultsOf p).grpc := by rw [hvgrpc]; rfl
  have hconc : (merged p s₀).concurrency
      = effective v.concurrency (defaultsOf p).concurrency := by rw [hvconc]; rfl
  simp only [Scenario.violations, List.append_eq_nil_iff] at hviol hdviol
  have hwsviol := hviol.1.1.1.1.1.2
  have hgrpcviol := hviol.1.1.1.1.1.1.2
  have hdwsviol := hdviol.1.1.1.1.1.2
  have hdgrpcviol := hdviol.1.1.1.1.1.1.2
  unfold planStreams planInflight
  cases hblock : (merged p s₀).websocket with
  | some ws =>
    have hviolations := violations_of_or (hws ▸ hblock) (hvws ▸ hwsviol) hdwsviol
    simp only [WebSocket.violations, List.append_eq_nil_iff] at hviolations
    unfold validateWebSocket at hws_ok
    rw [← hws, hblock] at hws_ok
    simp only [bind_ok_iff, exists_unit_ok_iff, ← hconc] at hws_ok
    exact ⟨dvd_of_validateStreams hw hws_ok.2.2.2,
      atLeastOne_eq_nil hviolations.1.1 (by decide),
      atLeastOne_eq_nil hviolations.1.2 (by decide)⟩
  | none =>
    unfold aggregateRate at hmode
    rw [hblock] at hmode
    cases hg : (merged p s₀).grpc with
    | none => rw [hg] at hmode; exact absurd hmode (by simp)
    | some g =>
      rw [hg] at hmode
      simp only [Option.any_some, Option.isSome_none, Bool.or_false, beq_iff_eq] at hmode
      have hviolations := violations_of_or (hgrpc ▸ hg) (hvgrpc ▸ hgrpcviol) hdgrpcviol
      simp only [Grpc.violations, List.append_eq_nil_iff] at hviolations
      obtain ⟨_, -, hgrpc_ok⟩ := bind_ok_iff.mp hgrpc_ok
      rw [← hgrpc, hg] at hgrpc_ok
      simp only [bind_ok_iff, exists_unit_ok_iff, ← hconc, if_pos hmode] at hgrpc_ok
      exact ⟨dvd_of_validateStreams hw hgrpc_ok.2.2,
        atLeastOne_eq_nil hviolations.1.1.2 (by decide),
        atLeastOne_eq_nil hviolations.1.2 (by decide)⟩

/-! ## The engine's checks on an accepted plan -/

/-- What the engine refuses in the streaming modes and the plan does not check. -/
structure EngineTakes (s : Scenario) (e : Execution) (pool : Pool) (w : Nat) : Prop where
  workers : w < 2 ^ 31
  active : (planStreams s).toNat / w ≤ 100
  connections : s.websocket.isSome = true →
    ∀ c, s.connections = some c → (planStreams s).toNat / w ≤ c.toNat
  /-- the rate of a distributor whose product of targets and workers has wrapped -/
  rate : pool.distributor ≠ "" → e.perBackend = false →
    w ∣ e.rate.toNat / (pool.targets.length * w % 2 ^ 32) * w % 2 ^ 32

/-- The engine reads the workers that the plan divides by, as far as an `int` goes. -/
theorem stoi_compiled (hw : workersPerBackend s = .ok w) :
    stoi ((compiledStreamPart s).concurrency.getD "1") = toInt w := by
  unfold compiledStreamPart
  rcases workersPerBackend_ok hw with ⟨hempty, rfl⟩ | ⟨hne, -, -, hparse⟩
  · simp only [if_pos hempty]
    rfl
  · simp only [if_neg hne]
    exact stoi_digits hparse

theorem toInt_ok_iff {n : Int} : toInt w = .ok n ↔ n = w ∧ w < 2 ^ 31 := by
  unfold toInt
  split
  · rename_i h
    rw [Except.ok.injEq]
    omega
  · rename_i h
    refine iff_of_false nofun ?_
    omega

/-- The connections of a compiled WebSocket request hold its streams, unless the plan gives fewer.
-/
theorem connections_compiled (hw : workersPerBackend s = .ok w) (hws : s.websocket.isSome = true)
    (hpos : 0 < (planStreams s).toNat / w) :
    (planStreams s).toNat / w ≤ ((compiledStreamPart s).connections.getD 100).toNat ↔
      ∀ c, s.connections = some c → (planStreams s).toNat / w ≤ c.toNat := by
  have hlt := (workersPerBackend_bounds hw).2
  unfold compiledStreamPart
  cases hc : s.connections with
  | some c =>
    constructor
    · intro h c' hc'
      rw [← Option.some.inj hc']
      exact h
    · intro h
      exact h c rfl
  | none =>
    refine iff_of_true ?_ (fun c hc => absurd hc nofun)
    obtain ⟨ws, hblock⟩ := Option.isSome_iff_exists.mp hws
    have hstreams : planStreams s = ws.streams.getD 20 := by
      unfold planStreams
      rw [hblock]
    have hper : (ws.streams.getD 20 / UInt32.ofNat w).toNat = (planStreams s).toNat / w := by
      rw [UInt32.toNat_div, toNat_ofNat_of_lt hlt, hstreams]
    have hpositive : 0 < ws.streams.getD 20 / UInt32.ofNat w := by
      rw [UInt32.lt_iff_toNat_lt, hper]
      exact hpos
    have hconn : websocketConnections s ws {} = some (ws.streams.getD 20 / UInt32.ofNat w) := by
      unfold websocketConnections
      rw [hc]
      simp only [Option.isSome_none, Bool.or_self, Bool.false_eq_true, if_false, hw,
        if_pos hpositive]
    simp only [hblock, Option.none_or, Option.bind_some, hconn, Option.getD_some, hper]
    exact Nat.le_refl _

/-- The variant an execution was compiled from differs in nothing that concerns streams. -/
theorem streamPart_executedAs (s : Scenario) (t : Option Target) :
    compiledStreamPart (executedAs s t) = compiledStreamPart s := by
  cases t <;> rfl

/-- **The members a request of a streaming scenario is read as**, where the checks look. -/
theorem streamsFit_sent {share : UInt32} {r : RequestOptions} (hw : workersPerBackend s = .ok w)
    (hpart : streamPartOf e.options = compiledStreamPart s)
    (hrequest : e.options.requestOptions = some (.requestOptions r))
    (hmode : aggregateRate e.scenario = true) (hsent : Sent e pool w share o)
    (hstreams : w ∣ (planStreams s).toNat) (hpos : 0 < (planStreams s).toNat)
    (hinflight : 0 < (planInflight s).toNat) :
    StreamsFit (reading o) w ↔ (planStreams s).toNat / w ≤ 100
      ∧ (s.websocket.isSome = true → ∀ c, s.connections = some c →
          (planStreams s).toNat / w ≤ c.toNat)
      ∧ w ∣ share.toNat * w % 2 ^ 32 := by
  have hworkers := workersPerBackend_bounds hw
  have hopart : streamPartOf o = compiledStreamPart s := by
    rw [← hpart, hsent.options]
    rfl
  have hstreams_eq : (reading o).streams = planStreams s := by
    rw [← (planStreams_compiled s).1, ← hopart]
    rfl
  have hinflight_eq : (reading o).maxInflightPerStream = planInflight s := by
    rw [← (planStreams_compiled s).2, ← hopart]
    rfl
  have hws_eq : (reading o).websocket = s.websocket.isSome :=
    (congrArg (fun part => part.websocket.isSome) hopart).trans Option.isSome_map
  have hconn_eq : (reading o).connections = (compiledStreamPart s).connections.getD 100 :=
    congrArg (fun part => part.connections.getD 100) hopart
  have hactive_eq : (reading o).maxActiveRequests = 100 :=
    congrArg (fun part => part.maxActiveRequests.getD 100) hopart
  have hrate : (reading o).requestsPerSecond.toNat = share.toNat * w % 2 ^ 32 := by
    have h : (reading o).requestsPerSecond = o.requestsPerSecond.getD 5 := rfl
    rw [h, hsent.options]
    unfold backendRate
    rw [if_pos hmode, Option.getD_some, UInt32.toNat_mul, toNat_ofNat_of_lt hworkers.2]
  have hplugin : (reading o).requestSourcePluginConfig = none := by
    have h : o.requestOptions = some (.requestOptions r) := by
      rw [hsent.options]
      exact hrequest
    unfold reading
    rw [h]
  have houtput : (reading o).userDefinedOutputPluginConfigs = [] :=
    congrArg StreamPart.userDefinedPluginConfigs hopart
  have hwarmup : (reading o).simpleWarmup = false :=
    congrArg (fun part => part.simpleWarmup.getD false) hopart
  have hdiv : 0 < (planStreams s).toNat / w :=
    Nat.div_pos (Nat.le_of_dvd hpos hstreams) hworkers.1
  constructor
  · intro hfit
    refine ⟨?_, fun hws => (connections_compiled hw hws hdiv).mp ?_, hrate ▸ hfit.rate⟩
    · have := hfit.active
      rwa [hstreams_eq, hactive_eq] at this
    · rw [← hstreams_eq, ← hconn_eq]
      exact hfit.connections (hws_eq.trans hws)
  · rintro ⟨hactive, hconn, hdvd⟩
    refine ⟨?_, by rw [hstreams_eq]; exact hpos, by rw [hstreams_eq]; exact hstreams,
      by rw [hrate]; exact hdvd, by rw [hinflight_eq]; exact hinflight, ?_, hplugin, houtput,
      hwarmup⟩
    · intro hws
      rw [hws_eq] at hws
      rw [hstreams_eq, hconn_eq]
      exact (connections_compiled hw hws hdiv).mpr (hconn hws)
    · rw [hstreams_eq, hactive_eq]
      exact hactive

section

variable {v : Scenario} (hparse : parse go p = .ok p') (hs : s ∈ p'.scenarios) (hv : v ∈ variants s)
  (hgrpc : v.grpc = s.grpc) (hws : v.websocket = s.websocket)
include hparse hs hv hgrpc hws

/-- No variant of a streaming scenario has a raw target. -/
theorem not_raw_of_aggregate (h : aggregateRate s = true) : isRaw v.target = false := by
  cases hraw : isRaw v.target with
  | false => rfl
  | true =>
    obtain ⟨hg, hw⟩ := parse_raw_excludes_streams hparse hs hv hraw
    unfold aggregateRate at h
    rw [← hgrpc, ← hws, hg, hw] at h
    cases h

/-- The engine is in a streaming mode too. -/
theorem streamModeEnabled_sent {share : UInt32} (htemplate : v.nighthawkTemplate = none)
    (hmode : aggregateRate s = true) (hshape : shapeOf e.options = compiledShape v rate dur ramp)
    (hsent : Sent e pool w share o) : (reading o).streamModeEnabled = true := by
  have hstreams := aggregate_streams hparse hs hv hgrpc hws hmode
  have hgrpcMode : o.grpcMode = compiledGrpcMode v := by
    have := congrArg Shape.grpcMode hshape
    rw [hsent.options]
    exact this
  have hwebsocket : o.websocket.isSome = v.websocket.isSome := by
    have := congrArg Shape.websocket hshape
    simp only [shapeOf, compiledShape, template, htemplate, Option.getD_none, Option.isSome_none,
      Bool.and_false, Bool.or_false] at this
    rw [hsent.options]
    exact this
  unfold engineStreams template at hstreams
  rw [htemplate] at hstreams
  simp only [Option.getD_none, Option.isSome_none, Bool.and_false, Bool.or_false,
    Bool.or_eq_true, beq_iff_eq] at hstreams
  change (o.grpcMode.getD .none == .bidiStream || o.websocket.isSome) = true
  rw [hgrpcMode, hwebsocket, Bool.or_eq_true]
  rcases hstreams with hstreams | hstreams
  · exact Or.inl (by rw [hstreams]; rfl)
  · exact Or.inr hstreams

end

/-- A pool that is served has a number of workers per backend. -/
theorem workers_of_forPool {addrs : List String} {opts : List CommandLineOptions}
    (h : forPool e pool = .ok (addrs, opts)) (ho : o ∈ opts) :
    ∃ w, workersPerBackend e.scenario = .ok w := by
  obtain ⟨_, -, ⟨-, hshare⟩ | ⟨-, divided, -, hdiv⟩⟩ := forPool_ok h ho
  · obtain ⟨-, w, _, hw, -⟩ := uniformShare_ok hshare
    exact ⟨w, hw⟩
  · obtain ⟨w, _, hd, -⟩ := divide_ok hdiv
    exact ⟨w, hd.workers⟩

/--
**Which requests of an accepted streaming scenario the engine takes.** The plan checks the
streams against the workers; what it leaves to the engine is `EngineTakes`.
-/
theorem validateStreams_iff_engineTakes {p p' : Plan} {s : Scenario} {execs : List Execution}
    {e : Execution} {pool : Pool} {addrs : List String} {opts : List CommandLineOptions}
    {o : CommandLineOptions} (hparse : parse go p = .ok p') (hs : s ∈ p'.scenarios)
    (htemplate : s.nighthawkTemplate = none) (hmode : aggregateRate s = true)
    (hexpand : expand go s = .ok execs) (he : e ∈ execs)
    (hpool : forPool e pool = .ok (addrs, opts)) (ho : o ∈ opts) :
    ∃ w, workersPerBackend s = .ok w ∧ (reading o).streamModeEnabled = true
      ∧ ((reading o).validateStreams = .ok () ↔ EngineTakes s e pool w) := by
  have hcomp := expand_compiled hexpand he
  obtain ⟨w, hworkers⟩ := workers_of_forPool hpool ho
  have hw : workersPerBackend s = .ok w := by rw [← hcomp.scenario]; exact hworkers
  obtain ⟨ex, pl, -, -, hcarries⟩ := hcomp.carries
  obtain ⟨hconc, hgrpc, hws⟩ := executedAs_keeps s e.target
  have htemplate' : (executedAs s e.target).nighthawkTemplate = none := by
    rw [← htemplate]
    cases e.target <;> rfl
  have hraw := not_raw_of_aggregate hparse hs hcomp.variant hgrpc hws hmode
  have hpart : streamPartOf e.options = compiledStreamPart s := by
    rw [← streamPart_executedAs s e.target]
    exact options_streamPart htemplate' hraw hcarries.options
  have hshapes : shapesRequest (executedAs s e.target) = true := by
    unfold aggregateRate at hmode
    unfold shapesRequest
    rw [hgrpc, hws]
    cases hg : s.grpc with
    | some g => simp
    | none =>
      rw [hg] at hmode
      simp only [Option.any_none, Bool.false_or] at hmode
      simp [hmode]
  obtain ⟨r, hrequest⟩ := options_request hshapes hcarries.options
  have haggregate : aggregateRate e.scenario = true := by rw [hcomp.scenario]; exact hmode
  obtain ⟨share, hsent⟩ := forPool_sent hworkers hpool ho
  obtain ⟨hdvd, hpos, hinflight⟩ := parse_streams hparse hs hmode hw
  refine ⟨w, hw, streamModeEnabled_sent hparse hs hcomp.variant hgrpc hws htemplate' hmode
    (options_shape hcarries.options) hsent, ?_⟩
  have hfit := streamsFit_sent hw hpart hrequest haggregate hsent hdvd hpos hinflight
  have hconcurrency : (reading o).concurrency = (compiledStreamPart s).concurrency.getD "1" := by
    rw [← hpart]
    have h : (reading o).concurrency = o.concurrency.getD "1" := rfl
    rw [h, hsent.options]
    rfl
  have hrate : w ∣ share.toNat * w % 2 ^ 32 ↔ (pool.distributor ≠ "" → e.perBackend = false →
      w ∣ e.rate.toNat / (pool.targets.length * w % 2 ^ 32) * w % 2 ^ 32) := by
    by_cases hshared : pool.distributor ≠ "" ∧ e.perBackend = false
    · rw [← hsent.shared hshared.1 hshared.2]
      exact ⟨fun h _ _ => h, fun h => h hshared.1 hshared.2⟩
    · refine iff_of_true ?_ fun hdist hper => absurd ⟨hdist, hper⟩ hshared
      -- a share of a direct pool, or of every target, is no more than the rate
      have hle : share.toNat * w ≤ e.rate.toNat := by
        apply hsent.direct
        by_cases hdist : pool.distributor = ""
        · exact Or.inl hdist
        · cases hper : e.perBackend with
          | true => exact Or.inr rfl
          | false => exact absurd ⟨hdist, hper⟩ hshared
      have hlt := e.rate.toNat_lt
      rw [Nat.mod_eq_of_lt (by omega)]
      exact Nat.dvd_mul_left w _
  rw [OptionsImpl.Members.validateStreams_ok_iff, hconcurrency, stoi_compiled hw]
  simp only [toInt_ok_iff]
  constructor
  · rintro ⟨n, ⟨rfl, hlt⟩, -, hn⟩
    obtain ⟨h1, h2, h3⟩ := hfit.mp hn
    exact ⟨hlt, h1, h2, hrate.mp h3⟩
  · rintro ⟨hlt, h1, h2, h3⟩
    have hpos' := (workersPerBackend_bounds hw).1
    exact ⟨w, ⟨rfl, hlt⟩, by omega, hfit.mpr ⟨h1, h2, hrate.mpr h3⟩⟩

/-- Ten messages per second over WebSocket, for ten seconds. -/
def tenMessages (ws : WebSocket) (connections : Option UInt32) : Scenario :=
  { scenarioOf { type := constantRate, rate := 10, duration := some (.ofMillis 10000) } with
    websocket := some ws, connections }

/-- With the defaults, twenty streams on twenty connections, the engine takes the request. -/
theorem validateStreams_tenMessages : ∃ e o,
    expand Go.bare (tenMessages {} none) = .ok [e]
      ∧ forPool e oneEngine = .ok (["engine:8443"], [o])
      ∧ (reading o).connections = 20 ∧ (reading o).validateStreams = .ok () := by
  have hparse : parse Go.bare (planOf (tenMessages {} none)) = .ok (planOf (tenMessages {} none)) :=
    rfl
  refine ⟨_, _, rfl, rfl, rfl, ?_⟩
  obtain ⟨w, hw, -, hiff⟩ := validateStreams_iff_engineTakes hparse (List.mem_singleton.mpr rfl) rfl
    rfl rfl (List.mem_singleton.mpr rfl) (show forPool _ oneEngine = .ok _ from rfl)
    (List.mem_singleton.mpr rfl)
  obtain rfl : 1 = w := Except.ok.inj hw
  refine hiff.mpr ⟨by decide, by decide, ?_, ?_⟩
  · intro _ c hc
    cases hc
  · intro hdist
    exact absurd rfl hdist

/-- Two hundred streams, and twenty on one connection: both plans are accepted and divided, and
the engine refuses both requests. -/
theorem validateStreams_refused_at_run_time :
    (∃ e o, parse Go.bare (planOf (tenMessages { streams := some 200 } none))
          = .ok (planOf (tenMessages { streams := some 200 } none))
        ∧ expand Go.bare (tenMessages { streams := some 200 } none) = .ok [e]
        ∧ forPool e oneEngine = .ok (["engine:8443"], [o])
        ∧ (reading o).streamModeEnabled = true ∧ (reading o).validateStreams ≠ .ok ())
      ∧ ∃ e o, parse Go.bare (planOf (tenMessages {} (some 1)))
          = .ok (planOf (tenMessages {} (some 1)))
        ∧ expand Go.bare (tenMessages {} (some 1)) = .ok [e]
        ∧ forPool e oneEngine = .ok (["engine:8443"], [o])
        ∧ (reading o).streamModeEnabled = true ∧ (reading o).validateStreams ≠ .ok () :=
  ⟨⟨_, _, rfl, rfl, rfl, rfl, nofun⟩, _, _, rfl, rfl, rfl, rfl, nofun⟩

end Sortie.Proof
