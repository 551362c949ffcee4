import Sortie.Proof.OptionsWritten
import Sortie.Run.Dispatch

/-!
# How long a backend has, and how long it may take

`backendDeadline` is put together on one side of the wire and spent on the other. The
runner adds up every window that the options set, whichever mode it belongs to, and its
own default when they set none. The engine looks at the URI and the options, picks one
mode, and waits for that mode's window, with its own defaults.

The sum is a saturating one, so it is compared as one number (`backendDeadline_ns`).
What is left is whether the windows cover the wait. They do in every mode but one way:
the timeout of datagrams counts as a window for a run that sends none, and then the
default for the streams, which such a run still waits for, is not counted.
-/

namespace Sortie.Run

open Proto Api Engine.OptionsImpl

variable {F : Type}

/-! ## The terms of the sum -/

/-- The grace of a runner: its own, or the default. -/
def graceOf (r : Runner) : Span := if r.responseGrace ≤ 0 then responseGrace else r.responseGrace

/-- The timeout of a message: its own, or the engine's default. -/
def timeoutOf (o : CommandLineOptions) : Span :=
  (o.timeout.map Duration.asDuration).getD engineTimeout

/-- What a window adds: a negative one adds nothing. -/
def counted (a : Span) : Int := max a.ns 0

/-- All windows together. -/
def countedSum (ws : List Span) : Int := (ws.map counted).sum

theorem counted_nonneg (a : Span) : 0 ≤ counted a := le_max_right _ _

theorem countedSum_nonneg (ws : List Span) : 0 ≤ countedSum ws := by
  induction ws with
  | nil => exact le_refl _
  | cons w ws ih =>
    have hw := counted_nonneg w
    simp only [countedSum, List.map_cons, List.sum_cons] at ih ⊢
    omega

/-- One addition: the exact sum, up to the largest span. -/
theorem addDuration_ns (a b : Span) :
    (addDuration a b).ns = min Span.max.ns (a.ns + counted b) := by
  have ha := a.inRange
  have hmax : Span.max.ns = 2 ^ 63 - 1 := rfl
  unfold addDuration counted
  rw [hmax]
  by_cases hneg : b ≤ 0
  · rw [if_pos hneg]
    have hb0 : b.ns ≤ 0 := hneg
    omega
  · rw [if_neg hneg]
    have hb0 : ¬ b.ns ≤ 0 := hneg
    by_cases hlong : 2 ^ 63 - 1 - b.ns < a.ns
    · rw [if_pos hlong, hmax]
      omega
    · rw [if_neg hlong, Span.clamp_ns, if_neg (by omega), if_neg (by omega)]
      omega

/-- A sum that has reached the largest span stays there, so saturating on the way or at the
end is the same. -/
theorem foldl_addDuration_ns (ws : List Span) (a : Span) :
    (ws.foldl addDuration a).ns = min Span.max.ns (a.ns + countedSum ws) := by
  induction ws generalizing a with
  | nil =>
    have ha := a.inRange
    simp only [List.foldl_nil, countedSum, List.map_nil, List.sum_nil, Span.max]
    omega
  | cons w ws ih =>
    have hws := countedSum_nonneg ws
    rw [List.foldl_cons, ih, addDuration_ns]
    simp only [countedSum, List.map_cons, List.sum_cons] at hws ⊢
    omega

/-- **The deadline as one number.** -/
theorem backendDeadline_ns (r : Runner) (e : Execution) :
    (r.backendDeadline e).ns = min Span.max.ns (e.duration.ns + counted (timeoutOf e.options)
      + countedSum (drainWindows e.options) + counted (graceOf r)) := by
  have hwindows := countedSum_nonneg (drainWindows e.options)
  have hgrace := counted_nonneg (graceOf r)
  have hsum : r.backendDeadline e = addDuration ((drainWindows e.options).foldl addDuration
    (addDuration e.duration (timeoutOf e.options))) (graceOf r) := rfl
  rw [hsum, addDuration_ns, foldl_addDuration_ns, addDuration_ns]
  omega

/-- The terms of one sum are at most those of another. -/
structure TermsLe (r : Runner) (e : Execution) (r' : Runner) (e' : Execution) : Prop where
  duration : e.duration ≤ e'.duration
  timeout : timeoutOf e.options ≤ timeoutOf e'.options
  windows : List.Forall₂ (· ≤ ·) (drainWindows e.options) (drainWindows e'.options)
  grace : graceOf r ≤ graceOf r'

theorem counted_mono {a b : Span} (h : a ≤ b) : counted a ≤ counted b :=
  max_le_max_right 0 h

theorem countedSum_mono {ws ws' : List Span} (h : List.Forall₂ (· ≤ ·) ws ws') :
    countedSum ws ≤ countedSum ws' := by
  induction h with
  | nil => exact le_refl _
  | cons hw _ ih =>
    have hhead := counted_mono hw
    simp only [countedSum, List.map_cons, List.sum_cons] at ih ⊢
    omega

theorem backendDeadline_mono {r r' : Runner} {e e' : Execution} (h : TermsLe r e r' e') :
    r.backendDeadline e ≤ r'.backendDeadline e' := by
  have hduration : e.duration.ns ≤ e'.duration.ns := h.duration
  have htimeout := counted_mono h.timeout
  have hwindows := countedSum_mono h.windows
  have hgrace := counted_mono h.grace
  rw [Span.le_iff, backendDeadline_ns, backendDeadline_ns]
  omega

/-- No term makes the deadline shorter than the planned duration. -/
theorem duration_le_backendDeadline (r : Runner) (e : Execution) :
    e.duration ≤ r.backendDeadline e := by
  have hduration := e.duration.inRange
  have htimeout := counted_nonneg (timeoutOf e.options)
  have hwindows := countedSum_nonneg (drainWindows e.options)
  have hgrace := counted_nonneg (graceOf r)
  rw [Span.le_iff, backendDeadline_ns]
  simp only [Span.max]
  omega

/-! ## What the engine waits for -/

/-- The drain window of the streams, when the options set one. The engine reads the websocket
block last. -/
def drainSet (o : CommandLineOptions) : Option Duration :=
  (o.websocket.bind WebSocketOptions.drainDuration).or
    ((o.tcp.bind TcpOptions.drainDuration).or (o.grpcStream.bind GrpcStreamOptions.drainDuration))

/-- How long a datagram may go unanswered, when the options say it. -/
def udpTimeoutSet (o : CommandLineOptions) : Option Duration := o.udp.bind UdpOptions.timeout

def engineStreamDrain : Span := .clamp 500000000
def engineUdpTimeout : Span := .ofSeconds 1

/-- The run keeps streams or connections open, whose echoes it collects at the end. -/
def awaitsEchoes (o : CommandLineOptions) : Bool :=
  !(Members.reading o).udp && ((Members.reading o).tcp || (Members.reading o).streamModeEnabled)

/-- The wait at the end of a run, for the mode that the URI and the options select. -/
def endWait (o : CommandLineOptions) : Span :=
  let drain := ((drainSet o).map Duration.asDuration).getD engineStreamDrain
  let timeout := ((udpTimeoutSet o).map Duration.asDuration).getD engineUdpTimeout
  if (Members.reading o).udp then if drain ≤ timeout then drain else timeout
  else if awaitsEchoes o then drain
  else 0

/-- The same wait in the engine's members: `BenchmarkClientFactoryImpl::create` picks the client,
and each client is made with these durations. -/
def memberWait (m : Members) : Span :=
  if m.udp then if m.streamDrainDuration ≤ m.udpTimeout then m.streamDrainDuration else m.udpTimeout
  else if m.tcp || m.streamModeEnabled then m.streamDrainDuration
  else 0

/-- The seconds and the whole message fit 64 bits of nanoseconds. -/
def FitsSpan (d : Duration) : Prop :=
  (-2 ^ 63 ≤ d.seconds * second ∧ d.seconds * second < 2 ^ 63)
    ∧ -2 ^ 63 ≤ d.total ∧ d.total < 2 ^ 63

theorem durationToNanoseconds_of_fits {d : Duration} (h : FitsSpan d) :
    Engine.durationToNanoseconds d = d.asDuration := by
  obtain ⟨hseconds, htotal⟩ := h
  have hnot : ¬ (d.seconds * second < -2 ^ 63 ∨ 2 ^ 63 ≤ d.seconds * second) := by omega
  unfold Duration.asDuration
  rw [if_neg hnot]
  ext
  rw [Span.clamp_ns, if_neg (by omega), if_neg (by omega)]
  exact Int.bmod_eq_of_le_mul_two (by unfold Duration.total second at htotal; omega)
    (by unfold Duration.total second at htotal; omega)

variable {o : CommandLineOptions}

/-- The engine waits as long as the message says, unless a duration is too long for it. -/
theorem memberWait_reading (hdrain : ∀ d ∈ drainSet o, FitsSpan d)
    (htimeout : ∀ d ∈ udpTimeoutSet o, FitsSpan d) :
    memberWait (Members.reading o) = endWait o := by
  have hdrains : (Members.reading o).streamDrainDuration
      = ((drainSet o).map Duration.asDuration).getD engineStreamDrain := by
    have hread : (Members.reading o).streamDrainDuration
        = ((drainSet o).map Engine.durationToNanoseconds).getD engineStreamDrain := by
      unfold drainSet
      simp only [Members.reading]
      cases o.websocket.bind WebSocketOptions.drainDuration with
      | some d => rfl
      | none => cases o.tcp.bind TcpOptions.drainDuration <;> rfl
    rw [hread]
    cases hset : drainSet o with
    | none => rfl
    | some d => exact durationToNanoseconds_of_fits (hdrain d hset)
  have htimeouts : (Members.reading o).udpTimeout
      = ((udpTimeoutSet o).map Duration.asDuration).getD engineUdpTimeout := by
    have hread : (Members.reading o).udpTimeout
        = ((udpTimeoutSet o).map Engine.durationToNanoseconds).getD engineUdpTimeout := rfl
    rw [hread]
    cases hset : udpTimeoutSet o with
    | none => rfl
    | some d => exact durationToNanoseconds_of_fits (htimeout d hset)
  unfold memberWait endWait awaitsEchoes
  rw [hdrains, htimeouts]
  cases (Members.reading o).udp <;> simp

/-! ## The windows against the wait -/

theorem le_countedSum {w : Span} {ws : List Span} (h : w ∈ ws) : w.ns ≤ countedSum ws := by
  induction ws with
  | nil => exact absurd h List.not_mem_nil
  | cons v ws ih =>
    have hv := counted_nonneg v
    have hws := countedSum_nonneg ws
    simp only [countedSum, List.map_cons, List.sum_cons] at ih hws ⊢
    rcases List.mem_cons.mp h with rfl | hmem
    · have hle : w.ns ≤ counted w := le_max_left _ _
      omega
    · have := ih hmem
      omega

/-- A drain window that the engine reads is one of the windows. -/
theorem mem_drainWindows_of_drainSet {d : Duration}
    (h : drainSet o = some d) : d.asDuration ∈ drainWindows o := by
  unfold drainSet at h
  unfold drainWindows
  generalize o.websocket.bind WebSocketOptions.drainDuration = websocket at *
  generalize o.tcp.bind TcpOptions.drainDuration = tcp at *
  generalize o.grpcStream.bind GrpcStreamOptions.drainDuration = grpc at *
  have hmem : some d ∈ [grpc, websocket, tcp, o.udp.bind UdpOptions.timeout] := by
    cases websocket with
    | some w => simp_all
    | none => cases tcp <;> simp_all
  have hin : d.asDuration ∈ [grpc, websocket, tcp, o.udp.bind UdpOptions.timeout].filterMap
      fun d => d.map Duration.asDuration := List.mem_filterMap.mpr ⟨some d, hmem, rfl⟩
  rw [if_neg (by rw [List.isEmpty_iff]; exact List.ne_nil_of_mem hin)]
  exact hin

/-- Without one there is the timeout of datagrams alone, or the default. -/
theorem drainWindows_of_unset (h : drainSet o = none) :
    drainWindows o = [((udpTimeoutSet o).map Duration.asDuration).getD engineDrain] := by
  unfold drainSet at h
  simp only [Option.or_eq_none_iff] at h
  obtain ⟨hwebsocket, htcp, hgrpc⟩ := h
  unfold drainWindows udpTimeoutSet
  rw [hwebsocket, htcp, hgrpc]
  cases o.udp.bind UdpOptions.timeout <;> rfl

theorem countedSum_of_unset (h : drainSet o = none) :
    countedSum (drainWindows o)
      = counted (((udpTimeoutSet o).map Duration.asDuration).getD engineDrain) := by
  rw [drainWindows_of_unset h]
  simp only [countedSum, List.map_cons, List.map_nil, List.sum_cons, List.sum_nil]
  omega

theorem endWait_of_unset (hmode : awaitsEchoes o = true)
    (h : drainSet o = none) : endWait o = engineStreamDrain := by
  have hnot : (Members.reading o).udp = false := by
    have hboth := hmode
    unfold awaitsEchoes at hboth
    simp only [Bool.and_eq_true, Bool.not_eq_true'] at hboth
    exact hboth.1
  unfold endWait
  rw [h, hmode, hnot]
  rfl

/-- **Where the windows fall short of the wait.** -/
theorem countedSum_lt_endWait_iff (o : CommandLineOptions) :
    countedSum (drainWindows o) < (endWait o).ns ↔ awaitsEchoes o = true ∧ drainSet o = none
      ∧ ∃ u, udpTimeoutSet o = some u ∧ counted u.asDuration < engineStreamDrain.ns := by
  have hnonneg := countedSum_nonneg (drainWindows o)
  cases hdrain : drainSet o with
  | some d =>
    -- every mode waits for this window at most, and it is counted
    have hcounted := le_countedSum (mem_drainWindows_of_drainSet hdrain)
    refine iff_of_false ?_ (fun h => absurd h.2.1 (Option.some_ne_none d))
    unfold endWait
    simp only [hdrain, Option.map_some, Option.getD_some]
    split
    · split
      · omega
      · rename_i hlt
        have : ¬ d.asDuration.ns ≤ _ := hlt
        omega
    · split
      · omega
      · simp only [Span.zero_ns]
        omega
  | none =>
    rw [countedSum_of_unset hdrain]
    unfold endWait
    rw [hdrain]
    simp only [Option.map_none, Option.getD_none, true_and]
    cases hudp : udpTimeoutSet o with
    | none =>
      -- the default is as long as the longest of the engine's own
      refine iff_of_false ?_ (by rintro ⟨-, u, hu, -⟩; exact Option.some_ne_none u hu.symm)
      split
      · decide
      · split <;> decide
    | some u =>
      simp only [Option.map_some, Option.getD_some, Option.some.injEq, exists_eq_left']
      have hu : u.asDuration.ns ≤ counted u.asDuration := le_max_left _ _
      have hu0 := counted_nonneg u.asDuration
      by_cases hmode : (Members.reading o).udp = true
      · have hnot : awaitsEchoes o = false := by simp [awaitsEchoes, hmode]
        rw [if_pos hmode, hnot]
        refine iff_of_false ?_ (fun h => absurd h.1 Bool.false_ne_true)
        split
        · rename_i hle
          have : engineStreamDrain.ns ≤ u.asDuration.ns := hle
          omega
        · omega
      · rw [if_neg hmode]
        cases awaitsEchoes o with
        | true => simp
        | false => simpa using hu0

/-! ## The deadline against what is owed -/

/-- What a backend may take that does what it was told. -/
def owed (r : Runner) (e : Execution) : Int :=
  e.duration.ns + (timeoutOf e.options).ns + (endWait e.options).ns + (graceOf r).ns

/-- The deadline leaves a backend that time, as far as there are spans. -/
def Covered (r : Runner) (e : Execution) : Prop :=
  min Span.max.ns (owed r e) ≤ (r.backendDeadline e).ns

/-- The run waits for echoes for as long as the engine does by default, and the only window the
options set is for datagrams and shorter. A negative timeout makes up for a difference, and so
does a sum that is too long for a span anyway. -/
structure Undercut (r : Runner) (e : Execution) (u : Duration) : Prop where
  mode : awaitsEchoes e.options = true
  unset : drainSet e.options = none
  window : udpTimeoutSet e.options = some u
  short : counted u.asDuration + max (-(timeoutOf e.options).ns) 0 < engineStreamDrain.ns
  small : e.duration.ns + counted (timeoutOf e.options) + counted u.asDuration + (graceOf r).ns
    < Span.max.ns

theorem counted_graceOf (r : Runner) : counted (graceOf r) = (graceOf r).ns := by
  have hpos : 0 < (graceOf r).ns := by
    unfold graceOf
    split
    · decide
    · rename_i h
      have : ¬ r.responseGrace.ns ≤ 0 := h
      omega
  unfold counted
  omega

theorem covered_iff (r : Runner) (e : Execution) : Covered r e ↔ ¬ ∃ u, Undercut r e u := by
  have htimeout : counted (timeoutOf e.options)
      = (timeoutOf e.options).ns + max (-(timeoutOf e.options).ns) 0 := by
    unfold counted
    omega
  have hshort := countedSum_lt_endWait_iff e.options
  unfold Covered owed
  rw [backendDeadline_ns, counted_graceOf]
  constructor
  · rintro hcovered ⟨u, hu⟩
    have hsum := countedSum_of_unset hu.unset
    have h1 := hu.short
    have h2 := hu.small
    rw [hu.window, Option.map_some, Option.getD_some] at hsum
    rw [hsum, endWait_of_unset hu.mode hu.unset] at hcovered
    omega
  · intro hnot
    by_cases hlt : countedSum (drainWindows e.options) < (endWait e.options).ns
    · obtain ⟨hmode, hunset, u, hu, -⟩ := hshort.mp hlt
      have hsum := countedSum_of_unset hunset
      rw [hu, Option.map_some, Option.getD_some] at hsum
      rw [hsum, endWait_of_unset hmode hunset]
      -- whichever of the two inequalities fails, the deadline is long enough
      by_cases hadd : counted u.asDuration + max (-(timeoutOf e.options).ns) 0
        < engineStreamDrain.ns
      · have hlarge : ¬ e.duration.ns + counted (timeoutOf e.options) + counted u.asDuration
            + (graceOf r).ns < Span.max.ns := fun h => hnot ⟨u, hmode, hunset, hu, hadd, h⟩
        omega
      · omega
    · omega

/-! ## The options that compile makes -/

section Compiled

open Plan Compile Checks Proof

variable {go : Go F}

/-- The two fields that decide whether there are datagrams, and how long each may take. -/
def datagrams (o : CommandLineOptions) : Option UriChoice × Option UdpOptions := (o.uri, o.udp)

section

variable (s : Scenario) (o : CommandLineOptions)

theorem datagrams_setGrpc :
    datagrams (setGrpc s o) = datagrams o := by
  unfold setGrpc
  cases s.grpc <;> rfl

theorem datagrams_setTcp :
    datagrams (setTcp s o) = datagrams o := by
  unfold setTcp
  split <;> rfl

theorem datagrams_setWebsocket :
    datagrams (setWebsocket s o) = datagrams o := by
  unfold setWebsocket
  cases s.websocket <;> rfl

theorem datagrams_setUdp :
    datagrams (setUdp s o) = (o.uri, if isUdpTarget s.target then (setUdp s o).udp else o.udp) := by
  unfold setUdp
  cases isUdpTarget s.target <;> rfl

end

/-- **Where they come from.** Only a template gives a run that sends no datagrams a timeout for
them. -/
theorem datagrams_options {s : Scenario} {rate : UInt32} {dur ramp : Span} {id : String}
    (h : options go s rate dur ramp id = .ok o) :
    o.uri = (if s.target = "" then (template s).uri else some (.uri s.target))
      ∧ (isUdpTarget s.target = false → o.udp = (template s).udp) := by
  obtain ⟨protocol, context, request, sinks, interval, rfl, -, -⟩ := options_ok h
  -- the steps before the target's own, and those after it, leave both fields alone
  let o := { setShape s rate dur id (setDefaults (template s)) with protocol }
  have hall : datagrams (plainOptions s rate dur ramp id protocol)
      = datagrams (setUdp s (setGrpc s o)) := by
    change datagrams (setWebsocket s (setTcp s (setUdp s (setGrpc s o)))) = _
    rw [datagrams_setWebsocket, datagrams_setTcp]
  have hearlier := datagrams_setGrpc s o
  rw [datagrams_setUdp] at hall
  refine ⟨(congrArg Prod.fst hall).trans (congrArg Prod.fst hearlier), fun hno => ?_⟩
  rw [hno] at hall
  exact (congrArg Prod.snd hall).trans (congrArg Prod.snd hearlier)

/-- A target that compile takes for UDP is one for the engine, which also accepts capitals. -/
theorem isUdpUri_of_isUdpTarget {target : String} (h : isUdpTarget target = true) :
    Engine.isUdpUri target = true := by
  obtain ⟨rest, hrest⟩ := List.isPrefixOf_iff_prefix.mp h
  unfold Engine.isUdpUri Text.hasPrefix Text.asciiLower
  rw [← hrest]
  simp only [String.toList_ofList, List.map_append]
  exact List.isPrefixOf_iff_prefix.mpr ⟨_, rfl⟩

/-- Without a timeout for datagrams in the template every compiled execution is covered. -/
theorem covered_of_expand {s : Scenario} {execs : List Execution} {e : Execution}
    (h : expand go s = .ok execs) (he : e ∈ execs) (htemplate : udpTimeoutSet (template s) = none)
    (r : Runner) : Covered r e := by
  obtain ⟨ex, pl, -, -, hcarries⟩ := (expand_compiled h he).carries
  have hsame : template (executedAs s e.target) = template s := by
    cases e.target <;> rfl
  obtain ⟨huri, hudp⟩ := datagrams_options hcarries.options
  rw [covered_iff]
  rintro ⟨u, hu⟩
  by_cases htarget : isUdpTarget (executedAs s e.target).target = true
  · -- then the run sends datagrams, and waits for no stream
    have hne : (executedAs s e.target).target ≠ "" := by
      intro hempty
      rw [hempty] at htarget
      exact absurd htarget (by decide)
    have hmode := hu.mode
    rw [if_neg hne] at huri
    simp only [awaitsEchoes, Members.reading, huri, isUdpUri_of_isUdpTarget htarget] at hmode
    cases hmode
  · have hwindow := hu.window
    unfold udpTimeoutSet at hwindow htemplate
    rw [hudp (Bool.eq_false_iff.mpr htarget), hsame, htemplate] at hwindow
    exact Option.some_ne_none u hwindow.symm

/-- **The deadline.** It covers what a backend may take exactly when it is not undercut, which it
never is by what a template without a timeout for datagrams compiles to. It is at least the planned
duration, and no term shortens it by growing. What a backend may take is what its members say. -/
theorem backendDeadline_waits (r : Runner) (e : Execution) :
    (Covered r e ↔ ¬ ∃ u, Undercut r e u)
      ∧ (∀ (go : Go F) (s : Scenario) (execs : List Execution), expand go s = .ok execs →
          e ∈ execs → udpTimeoutSet (template s) = none → Covered r e)
      ∧ e.duration ≤ r.backendDeadline e
      ∧ (∀ (r' : Runner) (e' : Execution), TermsLe r e r' e' →
          r.backendDeadline e ≤ r'.backendDeadline e')
      ∧ ((∀ d ∈ drainSet e.options, FitsSpan d) → (∀ d ∈ udpTimeoutSet e.options, FitsSpan d) →
          memberWait (Members.reading e.options) = endWait e.options) :=
  ⟨covered_iff r e, fun _ _ _ h he ht => covered_of_expand h he ht r,
    duration_le_backendDeadline r e, fun _ _ => backendDeadline_mono, memberWait_reading⟩

end Compiled

/-- A plan over TCP whose template also says how long a datagram may take. -/
def echoPlan (timeout : Duration) : Plan where
  version := "v1"
  pools := [{ name := "p", services := ["one:8443"] }]
  scenarios :=
    [{ name := "echo", pool := "p", target := "tcp://127.0.0.1:80", body := "ping"
       executor := some
         { type := Plan.constantRate, rate := 10, duration := some (.ofMillis 10000) }
       nighthawkTemplate := some { udp := some { timeout := some timeout } } }]

/-- Where a datagram may take a second, that second covers the echoes as well; and a runner with a
longer grace gives the backend longer. -/
theorem backendDeadline_waits_echo : ∃ p s e,
    Plan.parse Go.bare (echoPlan (ParsedDuration.ofMillis 1000).toDuration) = .ok p
      ∧ p.scenarios = [s] ∧ Compile.expand Go.bare s = .ok [e] ∧ Covered { plan := p } e
      ∧ Runner.backendDeadline { plan := p } e
          ≤ Runner.backendDeadline { plan := p, responseGrace := Span.ofSeconds 180 } e := by
  refine ⟨_, _, _, rfl, rfl, rfl, (backendDeadline_waits (F := Unit) _ _).1.mpr ?_,
    (backendDeadline_waits (F := Unit) _ _).2.2.2.1 _ _ ⟨Int.le_refl _, Int.le_refl _,
      List.forall₂_same.mpr fun w _ => Int.le_refl w.ns, by decide⟩⟩
  rintro ⟨u, hu⟩
  obtain rfl := Option.some.inj hu.window
  exact absurd hu.short (by decide)

/-- The engine takes the request, and waits for half a second of echoes after ten seconds of load
and thirty of timeout; the deadline has a millisecond for it, next to two minutes of grace. -/
theorem not_covered_echo : ∃ p s e m,
    Plan.parse Go.bare (echoPlan (ParsedDuration.ofMillis 1).toDuration) = .ok p
      ∧ p.scenarios = [s] ∧ Compile.expand Go.bare s = .ok [e]
      ∧ construct Outside.plain e.options = .ok m ∧ (memberWait m).ns = 500000000
      ∧ owed { plan := p } e = 160500000000
      ∧ (Runner.backendDeadline { plan := p } e).ns = 160001000000
      ∧ ¬ Covered { plan := p } e :=
  ⟨_, _, _, _, rfl, rfl, rfl, rfl, rfl, rfl, rfl, by unfold Covered; decide⟩

end Sortie.Run
