import Sortie.Proof.StreamOptions
import Mathlib.Data.List.DropRight
import Mathlib.Data.String.Basic

/-!
# Options that are written and read again

The options of a run are echoed in its output and sent to a remote service, as the
message `toCommandLineOptions` makes of the members. The members that come back are
`normalized`: what the message has a place for comes back as it was, and each place that
is only there in one mode comes back with its default in the others.

The two halves meet at `Coherent`, which says how the members of one message hang
together. Every accepted message is read as coherent members, and coherent members are
what a reader makes of the message written from them.
-/

namespace Sortie.Engine.OptionsImpl

open Proto Api Checks

namespace Members

attribute [ext] Members

/-! ## Header lines -/

/-- Stripping, on the characters. -/
theorem toList_stripAsciiWhitespace (s : String) : (stripAsciiWhitespace s).toList
    = (s.toList.dropWhile isAsciiSpace).rdropWhile isAsciiSpace := String.toList_ofList

theorem rdropWhile_dropWhile_infix {p : Char → Bool} (l : List Char) :
    (l.dropWhile p).rdropWhile p <:+: l :=
  (List.rdropWhile_prefix p _).isInfix.trans (List.dropWhile_suffix p).isInfix

/-- What is stripped has nothing left to strip. -/
theorem stripAsciiWhitespace_idem (s : String) :
    stripAsciiWhitespace (stripAsciiWhitespace s) = stripAsciiWhitespace s := by
  apply String.toList_injective
  rw [toList_stripAsciiWhitespace, toList_stripAsciiWhitespace]
  generalize hl : s.toList.dropWhile isAsciiSpace = l
  have hfront : (l.rdropWhile isAsciiSpace).dropWhile isAsciiSpace = l.rdropWhile isAsciiSpace := by
    obtain ⟨t, ht⟩ := List.rdropWhile_prefix isAsciiSpace l
    cases hr : l.rdropWhile isAsciiSpace with
    | nil => rfl
    | cons c cs =>
      -- the first character of what is left is the first that stayed in front
      rw [hr] at ht
      have hhead := List.head_dropWhile_not isAsciiSpace (l := s.toList) (by simp [hl, ← ht])
      have hc : ¬ isAsciiSpace c = true := by simpa [hl, ← ht] using hhead
      exact List.dropWhile_cons_of_neg hc
  rw [hfront]
  exact List.rdropWhile_idempotent isAsciiSpace l

/-- A header as the line it is read as. -/
def headerLine (h : HeaderValue) : String := h.key ++ ":" ++ h.value

/-- **A line that was split and joined splits as before**, if it has a key. -/
theorem splitHeader_headerLine {header : String} {h : HeaderValue}
    (hsplit : splitHeader header = .ok h) (hkey : h.key ≠ "") :
    splitHeader (headerLine h) = .ok h := by
  unfold splitHeader at hsplit
  split at hsplit
  · cases hsplit
  · rename_i c cs _
    split at hsplit
    · cases hsplit
    · rename_i before after hcut
      cases hsplit
      generalize hk : stripAsciiWhitespace (String.ofList (c :: before)) = key at hkey
      generalize hv : stripAsciiWhitespace (String.ofList after) = value
      have hinfix : key.toList <:+: c :: before := by
        rw [← hk, toList_stripAsciiWhitespace, String.toList_ofList]
        exact rdropWhile_dropWhile_infix _
      cases hchars : key.toList with
      | nil => exact absurd (String.toList_eq_nil_iff.mp hchars) hkey
      | cons d ds =>
        -- only the first character of a key can be a colon
        have hds : ':' ∉ ds := by
          rw [hchars] at hinfix
          obtain ⟨front, back, happ⟩ := hinfix
          intro hmem
          refine (Text.cutList_singleton_iff.mp hcut).2 ?_
          cases front with
          | nil =>
            obtain ⟨-, rfl⟩ := List.cons.inj happ
            exact List.mem_append_left _ hmem
          | cons x front =>
            obtain ⟨-, rfl⟩ := List.cons.inj happ
            simp [hmem]
        have hline : (headerLine { key, value }).toList = d :: (ds ++ ':' :: value.toList) := by
          unfold headerLine
          rw [String.toList_append, String.toList_append, hchars]
          simp
        unfold splitHeader
        rw [hline]
        simp only [Text.cutList_singleton_iff.mpr ⟨rfl, hds⟩]
        rw [← hchars, String.ofList_toList, String.ofList_toList, ← hk, ← hv,
          stripAsciiWhitespace_idem, stripAsciiWhitespace_idem]

/-- A header line as it comes back. -/
def trimmed (header : String) : String :=
  match splitHeader header with
  | .ok h => headerLine h
  | .error _ => header

section

variable {headers : List String} {hs : List HeaderValue} (h : headers.mapM splitHeader = .ok hs)
include h

theorem map_trimmed : headers.map trimmed = hs.map headerLine := by
  have hall := mapM_ok h
  clear h
  induction hall with
  | nil => rfl
  | cons hsplit _ ih =>
    rw [List.map_cons, List.map_cons, ih, trimmed, hsplit]

theorem mapM_headerLine (hkeys : ∀ v ∈ hs, v.key ≠ "") :
    (hs.map headerLine).mapM splitHeader = .ok hs := by
  have hall := mapM_ok h
  clear h
  induction hall with
  | nil => rfl
  | @cons header v headers hs hsplit _ ih =>
    rw [List.map_cons, List.mapM_cons,
      splitHeader_headerLine hsplit (hkeys v List.mem_cons_self),
      ih fun v' hv' => hkeys v' (List.mem_cons_of_mem _ hv')]
    rfl

end

/-! ## Predicates -/

/-- The keys of a `std::map` are in order, and different. -/
def Ordered (m : PredicateMap) : Prop := m.Pairwise fun a b => a.1 < b.1

variable {m : Members} {written : CommandLineOptions}

section

variable {m : PredicateMap}

theorem mem_assign {key : String} {value : UInt64} {e : String × UInt64}
    (h : e ∈ m.assign key value) : e.1 = key ∨ e ∈ m := by
  induction m with
  | nil => exact Or.inl (congrArg Prod.fst (List.mem_singleton.mp h))
  | cons kv m ih =>
    obtain ⟨k, v⟩ := kv
    unfold PredicateMap.assign at h
    split at h
    · rcases List.mem_cons.mp h with rfl | h
      · exact Or.inl rfl
      · exact Or.inr (List.mem_cons_of_mem _ h)
    · split at h
      · rcases List.mem_cons.mp h with rfl | h
        · exact Or.inl rfl
        · exact Or.inr h
      · rcases List.mem_cons.mp h with rfl | h
        · exact Or.inr List.mem_cons_self
        · exact (ih h).imp_right (List.mem_cons_of_mem _)

theorem Ordered.assign (h : Ordered m) (key : String) (value : UInt64) :
    Ordered (m.assign key value) := by
  induction m with
  | nil => exact List.pairwise_singleton _ _
  | cons kv m ih =>
    obtain ⟨k, v⟩ := kv
    obtain ⟨hk, hm⟩ := List.pairwise_cons.mp h
    unfold PredicateMap.assign
    split
    · rename_i heq
      exact List.pairwise_cons.mpr ⟨fun e he => heq ▸ hk e he, hm⟩
    · rename_i hne
      split
      · rename_i hlt
        refine List.pairwise_cons.mpr ⟨fun e he => ?_, h⟩
        rcases List.mem_cons.mp he with rfl | he
        · exact hlt
        · exact lt_trans hlt (hk e he)
      · rename_i hge
        refine List.pairwise_cons.mpr ⟨fun e he => ?_, ih hm⟩
        rcases mem_assign he with heq | he
        · rw [heq]
          exact lt_of_le_of_ne (not_lt.mp hge) (Ne.symm hne)
        · exact hk e he

theorem Ordered.assignAll (h : Ordered m) (entries : List (String × UInt64)) :
    Ordered (m.assignAll entries) := by
  induction entries generalizing m with
  | nil => exact h
  | cons e entries ih => exact ih (h.assign e.1 e.2)

theorem assign_after {e : String × UInt64} (h : ∀ e' ∈ m, e'.1 < e.1) :
    m.assign e.1 e.2 = m ++ [e] := by
  induction m with
  | nil => rfl
  | cons kv m ih =>
    obtain ⟨k, v⟩ := kv
    have hk : k < e.1 := h _ List.mem_cons_self
    unfold PredicateMap.assign
    rw [if_neg (ne_of_gt hk), if_neg (not_lt_of_gt hk),
      ih fun e' he' => h e' (List.mem_cons_of_mem _ he')]
    rfl

/-- A map that was written is read as it was. -/
theorem assignAll_nil (h : Ordered m) : PredicateMap.assignAll [] m = m := by
  have hgen : ∀ (entries acc : PredicateMap), Ordered (acc ++ entries) →
      acc.assignAll entries = acc ++ entries := by
    intro entries
    induction entries with
    | nil =>
      intro acc _
      exact (List.append_nil acc).symm
    | cons e entries ih =>
      intro acc hacc
      have hbefore : ∀ e' ∈ acc, e'.1 < e.1 := fun e' he' =>
        (List.pairwise_append.mp hacc).2.2 e' he' e List.mem_cons_self
      have happ : acc ++ [e] ++ entries = acc ++ e :: entries := by simp
      change PredicateMap.assignAll (acc.assign e.1 e.2) entries = _
      rw [assign_after hbefore, ih _ (happ ▸ hacc), happ]
  exact hgen m [] h

theorem assign_ne_nil {key : String} {value : UInt64} :
    m.assign key value ≠ [] := by
  unfold PredicateMap.assign
  split
  · exact List.cons_ne_nil _ _
  · split
    · exact List.cons_ne_nil _ _
    · split <;> exact List.cons_ne_nil _ _

theorem assignAll_eq_nil {entries : List (String × UInt64)} (h : m.assignAll entries = []) :
    m = [] ∧ entries = [] := by
  induction entries generalizing m with
  | nil => exact ⟨h, rfl⟩
  | cons e entries ih => exact absurd (ih h).1 assign_ne_nil

end

/-! ## Durations and moments -/

theorem wrap_of_inRange (s : Span) : Span.wrap s.ns = s := by
  apply Span.ext
  have h := s.inRange
  exact Int.bmod_eq_of_le (by omega) (by omega)

theorem durationToNanoseconds_new (s : Span) : durationToNanoseconds (Duration.new s) = s := by
  have h : durationToNanoseconds (Duration.new s) = Span.wrap (Duration.new s).total := rfl
  rw [h, Duration.total_new, wrap_of_inRange]

theorem toUInt32_durationOfSeconds (n : UInt32) : toUInt32 (durationOfSeconds n).seconds = n := by
  have h := n.toNat_lt
  have hmod : ((n.toNat : Int) % 2 ^ 32).toNat = n.toNat := by omega
  change UInt32.ofNat ((n.toNat : Int) % 2 ^ 32).toNat = n
  rw [hmod]
  exact UInt32.ofNat_toNat

/-- A start has the resolution of microseconds. -/
theorem startTime_dvd (t : Timestamp) : 1000 ∣ (startTime t).ns := by
  unfold startTime
  generalize Span.wrap (t.nanos + t.seconds * 1000000000) = s
  -- rounding goes toward zero, so it stays within 64 bits
  have hrange : -2 ^ 63 ≤ s.ns.tdiv 1000 * 1000 ∧ s.ns.tdiv 1000 * 1000 < 2 ^ 63 := by
    have hs := s.inRange
    have hsign : Int.sign 1000 = 1 := rfl
    rw [Int.tdiv_eq_ediv, hsign]
    split <;> omega
  rw [wrap_of_inRange ⟨_, hrange⟩]
  exact Dvd.intro_left _ rfl

theorem startTime_nanosecondsToTimestamp {s : Span} (h : 1000 ∣ s.ns) :
    startTime (nanosecondsToTimestamp s.ns) = s := by
  have hsum : (nanosecondsToTimestamp s.ns).nanos
      + (nanosecondsToTimestamp s.ns).seconds * 1000000000 = s.ns := by
    change s.ns % 1000000000 + s.ns / 1000000000 * 1000000000 = s.ns
    omega
  unfold startTime
  rw [hsum, wrap_of_inRange, Int.tdiv_mul_cancel h, wrap_of_inRange]

/-! ## How the members of one message hang together -/

/-- What is true of the members whichever message they were read from. -/
structure Coherent (m : Members) : Prop where
  duration : m.noDuration = true → m.duration = 5
  protocol : m.h2 = true → m.protocol = .http1
  tunnel : m.tunnelProtocol = .http1 ∧ m.tunnelUri = "" ∧ m.encapPort = 0
    ∧ m.tunnelTlsContext = none
  raw : m.tcp = m.uri.any isTcpUri ∧ m.udp = m.uri.any isUdpUri
  target : m.uri.isSome = true →
    m.multiTargetEndpoints = [] ∧ m.multiTargetPath = "" ∧ m.multiTargetUseHttps = false
  binary : m.websocket = false → m.websocketBinary = false
  method : m.requestMethod ≠ .methodUnspecified
  /-- requests that come from elsewhere leave the members of a request alone -/
  source : m.requestSource ≠ "" ∨ m.requestSourcePluginConfig.isSome = true →
    m.requestMethod = (if m.grpcEnabled then .post else .get) ∧ m.requestHeaders = []
      ∧ m.requestBodySize = 0 ∧ m.requestBody = []
  oneSource : m.requestSource ≠ "" → m.requestSourcePluginConfig = none
  terminations : Ordered m.terminationPredicates
  failures : Ordered m.failurePredicates
  noFailures : m.failurePredicates = [] → m.noDefaultFailurePredicates = true
  flush : 0 < m.statsFlushIntervalDuration.seconds ∨ 0 < m.statsFlushIntervalDuration.nanos →
    m.statsFlushInterval = 5
  start : ∀ t, m.scheduledStart = some t → 1000 ∣ t.ns

theorem coherent_reading (o : CommandLineOptions) : Coherent (reading o) where
  duration := by
    unfold reading
    rcases o.durationOptions with _ | d | b
    · exact fun _ => rfl
    · rintro ⟨⟩
    · exact fun _ => rfl
  protocol := by
    intro h
    rw [h2_reading] at h
    simp [reading, h]
  tunnel := ⟨rfl, rfl, rfl, rfl⟩
  raw := by
    unfold reading
    rcases o.uri with _ | u | t <;> simp only [Option.any_some, Option.any_none, and_self]
  target := by
    unfold reading
    rcases o.uri with _ | u | t
    · rintro ⟨⟩
    · exact fun _ => ⟨rfl, rfl, rfl⟩
    · rintro ⟨⟩
  binary := by
    unfold reading
    cases o.websocket with
    | none => exact fun _ => rfl
    | some s => rintro ⟨⟩
  method := by
    unfold reading
    have hpost : (if asksGrpc o = true then RequestMethod.post else .get) ≠ .methodUnspecified := by
      split <;> rintro ⟨⟩
    rcases o.requestOptions with _ | r | uri | config
    · exact hpost
    · dsimp only
      split
      · assumption
      · exact hpost
    · exact hpost
    · exact hpost
  source := by
    unfold reading grpcEnabled
    rcases o.requestOptions with _ | r | uri | config
    · simp
    · simp
    · exact fun _ => ⟨rfl, rfl, rfl, rfl⟩
    · exact fun _ => ⟨rfl, rfl, rfl, rfl⟩
  oneSource := by
    unfold reading
    rcases o.requestOptions with _ | r | uri | config
    · exact fun _ => rfl
    · exact fun _ => rfl
    · exact fun _ => rfl
    · exact fun h => absurd rfl h
  terminations := Ordered.assignAll List.Pairwise.nil _
  failures := by
    refine Ordered.assignAll ?_ _
    split
    · exact List.Pairwise.nil
    · unfold Ordered
      decide
  noFailures := by
    intro h
    obtain ⟨hkept, hgiven⟩ := assignAll_eq_nil h
    by_contra hno
    rw [if_neg (by simp only [Bool.or_eq_true, not_or]; exact ⟨hno, by simp [hgiven]⟩)] at hkept
    cases hkept
  flush := by
    unfold reading
    rcases o.statsFlushInterval with _ | n | d
    · exact fun _ => rfl
    · rintro (h | h) <;> exact absurd h (Int.lt_irrefl 0)
    · exact fun _ => rfl
  start := by
    intro t h
    obtain ⟨ts, -, rfl⟩ := Option.map_eq_some_iff.mp h
    exact startTime_dvd ts

/-! ## The members that come back -/

/-- An endpoint with both of its fields present. -/
def explicit (e : Endpoint) : Endpoint :=
  { address := some (e.address.getD ""), port := some (e.port.getD 0) }

/--
The members, once they have been written and read again. What belongs to one mode is only
written in that mode.
-/
def normalized (m : Members) : Members :=
  { m with
    requestHeaders := m.requestHeaders.map trimmed
    tcpConnections := if m.tcp then m.tcpConnections else 1
    tcpMaxInflight := if m.tcp then m.tcpMaxInflight else 256
    tcpExpectEcho := if m.tcp then m.tcpExpectEcho else true
    tcpMaxMessages := if m.tcp then m.tcpMaxMessages else 0
    udpMaxInflight := if m.udp then m.udpMaxInflight else 256
    udpTimeout := if m.udp then m.udpTimeout else .ofSeconds 1
    streams := if m.streamModeEnabled then m.streams else 20
    maxInflightPerStream := if m.streamModeEnabled then m.maxInflightPerStream else 256
    streamDrainDuration :=
      if m.streamModeEnabled || m.tcp then m.streamDrainDuration else .clamp 500000000
    jitterUniform := if 0 < m.jitterUniform then m.jitterUniform else 0
    multiTargetEndpoints := m.multiTargetEndpoints.map explicit
    statsFlushIntervalDuration :=
      if 0 < m.statsFlushIntervalDuration.seconds ∨ 0 < m.statsFlushIntervalDuration.nanos then
        m.statsFlushIntervalDuration
      else durationOfSeconds 0 }

section Groups

variable {m : Members} {o : CommandLineOptions} (h : m.toCommandLineOptions = .ok o)

include h

theorem reading_duration (hc : Coherent m) :
    (reading o).duration = m.duration ∧ (reading o).noDuration = m.noDuration := by
  obtain ⟨request, -, ⟨⟩⟩ := bind_ok_iff.mp h
  cases hn : m.noDuration with
  | true => exact ⟨(hc.duration hn).symm, rfl⟩
  | false => exact ⟨toUInt32_durationOfSeconds _, rfl⟩

theorem reading_timeout : (reading o).timeout = m.timeout := by
  obtain ⟨request, -, ⟨⟩⟩ := bind_ok_iff.mp h
  exact toUInt32_durationOfSeconds _

theorem reading_protocol (hc : Coherent m) :
    (reading o).h2 = m.h2 ∧ (reading o).protocol = m.protocol := by
  obtain ⟨request, -, ⟨⟩⟩ := bind_ok_iff.mp h
  unfold reading
  cases hh2 : m.h2 with
  | true => exact ⟨rfl, by simp [hc.protocol hh2]⟩
  | false => exact ⟨rfl, by simp⟩

theorem reading_target (hc : Coherent m) :
    (reading o).uri = m.uri ∧ (reading o).tcp = m.tcp ∧ (reading o).udp = m.udp
      ∧ (reading o).multiTargetEndpoints = m.multiTargetEndpoints.map explicit
      ∧ (reading o).multiTargetPath = m.multiTargetPath
      ∧ (reading o).multiTargetUseHttps = m.multiTargetUseHttps := by
  obtain ⟨request, -, ⟨⟩⟩ := bind_ok_iff.mp h
  unfold reading
  rw [hc.raw.1, hc.raw.2]
  unfold uriChoice
  cases hu : m.uri with
  | some u =>
    obtain ⟨he, hp, hs⟩ := hc.target (by rw [hu]; rfl)
    simp only [he, hp, hs, Option.any_some, List.map_nil, and_self]
  | none => exact ⟨rfl, rfl, rfl, rfl, rfl, rfl⟩

theorem reading_grpcMode : (reading o).grpcMode = m.grpcMode := by
  obtain ⟨request, -, ⟨⟩⟩ := bind_ok_iff.mp h
  unfold reading grpcEnabled
  by_cases hn : m.grpcMode = .none
  · simp [hn]
  · simp [hn]

theorem reading_tcp :
    (reading o).tcpConnections = m.normalized.tcpConnections
      ∧ (reading o).tcpMaxInflight = m.normalized.tcpMaxInflight
      ∧ (reading o).tcpExpectEcho = m.normalized.tcpExpectEcho
      ∧ (reading o).tcpMaxMessages = m.normalized.tcpMaxMessages := by
  obtain ⟨request, -, ⟨⟩⟩ := bind_ok_iff.mp h
  unfold reading normalized
  cases m.tcp <;> exact ⟨rfl, rfl, rfl, rfl⟩

theorem reading_udp :
    (reading o).udpMaxInflight = m.normalized.udpMaxInflight
      ∧ (reading o).udpTimeout = m.normalized.udpTimeout := by
  obtain ⟨request, -, ⟨⟩⟩ := bind_ok_iff.mp h
  unfold reading normalized
  cases m.udp with
  | true => exact ⟨rfl, durationToNanoseconds_new _⟩
  | false => exact ⟨rfl, rfl⟩

/-- The streams and their drain, which three blocks can carry. -/
theorem reading_streams (hc : Coherent m) :
    (reading o).websocket = m.websocket ∧ (reading o).websocketBinary = m.websocketBinary
      ∧ (reading o).streams = m.normalized.streams
      ∧ (reading o).maxInflightPerStream = m.normalized.maxInflightPerStream
      ∧ (reading o).streamDrainDuration = m.normalized.streamDrainDuration := by
  obtain ⟨request, -, ⟨⟩⟩ := bind_ok_iff.mp h
  unfold reading normalized requestedStreams streamModeEnabled
  have hdrain := durationToNanoseconds_new m.streamDrainDuration
  cases hw : m.websocket with
  | true =>
    cases m.grpcStreamEnabled <;> exact ⟨rfl, rfl, rfl, rfl, hdrain⟩
  | false =>
    rw [hc.binary hw]
    cases m.grpcStreamEnabled with
    | true => cases m.tcp <;> exact ⟨rfl, rfl, rfl, rfl, hdrain⟩
    | false =>
      cases m.tcp with
      | true => exact ⟨rfl, rfl, rfl, rfl, hdrain⟩
      | false => exact ⟨rfl, rfl, rfl, rfl, rfl⟩

theorem reading_tlsContext : (reading o).tlsContext = m.tlsContext := by
  obtain ⟨request, -, ⟨⟩⟩ := bind_ok_iff.mp h
  change Option.getD (if m.tlsContext = {} then none else some m.tlsContext) {} = m.tlsContext
  split
  · rename_i hempty
    exact hempty.symm
  · rfl

theorem reading_predicates (hc : Coherent m) :
    (reading o).terminationPredicates = m.terminationPredicates
      ∧ (reading o).failurePredicates = m.failurePredicates := by
  obtain ⟨request, -, ⟨⟩⟩ := bind_ok_iff.mp h
  refine ⟨assignAll_nil hc.terminations, ?_⟩
  have hkept : (m.noDefaultFailurePredicates || !m.failurePredicates.isEmpty) = true := by
    by_cases hnil : m.failurePredicates = []
    · simp [hc.noFailures hnil]
    · simp [hnil]
  unfold reading
  dsimp only [Option.getD_some]
  rw [if_pos hkept]
  exact assignAll_nil hc.failures

theorem reading_jitter : (reading o).jitterUniform = m.normalized.jitterUniform := by
  obtain ⟨request, -, ⟨⟩⟩ := bind_ok_iff.mp h
  unfold reading normalized
  dsimp only
  split
  · exact durationToNanoseconds_new _
  · rfl

theorem reading_flush (hc : Coherent m) :
    (reading o).statsFlushInterval = m.statsFlushInterval
      ∧ (reading o).statsFlushIntervalDuration = m.normalized.statsFlushIntervalDuration := by
  obtain ⟨request, -, ⟨⟩⟩ := bind_ok_iff.mp h
  unfold reading normalized
  by_cases hpos : 0 < m.statsFlushIntervalDuration.seconds ∨ 0 < m.statsFlushIntervalDuration.nanos
  · simp only [if_pos hpos]
    exact ⟨(hc.flush hpos).symm, trivial⟩
  · simp only [if_neg hpos]
    exact ⟨trivial, trivial⟩

theorem reading_start (hc : Coherent m) : (reading o).scheduledStart = m.scheduledStart := by
  obtain ⟨request, -, ⟨⟩⟩ := bind_ok_iff.mp h
  cases hs : m.scheduledStart with
  | none => rfl
  | some t => exact congrArg some (startTime_nanosecondsToTimestamp (hc.start t hs))

/-- The request, or where requests come from. -/
theorem reading_request (hc : Coherent m) :
    (reading o).requestMethod = m.requestMethod
      ∧ (reading o).requestHeaders = m.requestHeaders.map trimmed
      ∧ (reading o).requestBodySize = m.requestBodySize ∧ (reading o).requestBody = m.requestBody
      ∧ (reading o).requestSource = m.requestSource
      ∧ (reading o).requestSourcePluginConfig = m.requestSourcePluginConfig := by
  have hasks : asksGrpc o = m.grpcEnabled := by
    unfold asksGrpc grpcEnabled
    rw [← reading_grpcMode h]
    rfl
  obtain ⟨request, hchoice, ⟨⟩⟩ := bind_ok_iff.mp h
  unfold reading
  rw [hasks]
  unfold requestChoice at hchoice
  by_cases hsource : m.requestSource = ""
  · rw [if_neg (not_not.mpr hsource)] at hchoice
    cases hplugin : m.requestSourcePluginConfig with
    | some config =>
      rw [hplugin] at hchoice
      cases hchoice
      obtain ⟨hmethod, hheaders, hsize, hbody⟩ := hc.source (Or.inr (by rw [hplugin]; rfl))
      rw [hmethod, hheaders, hsize, hbody, hsource]
      exact ⟨rfl, rfl, rfl, rfl, rfl, rfl⟩
    | none =>
      rw [hplugin] at hchoice
      obtain ⟨hs, hsplit, ⟨⟩⟩ := bind_ok_iff.mp hchoice
      rw [map_trimmed hsplit, hsource]
      exact ⟨if_pos hc.method, rfl, rfl, rfl, rfl, rfl⟩
  · rw [if_pos hsource] at hchoice
    cases hchoice
    obtain ⟨hmethod, hheaders, hsize, hbody⟩ := hc.source (Or.inl hsource)
    rw [hmethod, hheaders, hsize, hbody, hc.oneSource hsource]
    exact ⟨rfl, rfl, rfl, rfl, rfl, rfl⟩

end Groups

/-- **Coherent members come back normalized.** -/
theorem reading_toCommandLineOptions (hc : Coherent m)
    (hsingle : m.h2UseMultipleConnections = false) (h : m.toCommandLineOptions = .ok written) :
    reading written = m.normalized := by
  obtain ⟨hduration, hnoDuration⟩ := reading_duration h hc
  obtain ⟨huri, htcp, hudp, hendpoints, hpath, hhttps⟩ := reading_target h hc
  obtain ⟨hh2, hprotocol⟩ := reading_protocol h hc
  obtain ⟨hmethod, hheaders, hsize, hbody, hsource, hplugin⟩ := reading_request h hc
  obtain ⟨hwebsocket, hbinary, hstreams, hinflight, hdrain⟩ := reading_streams h hc
  obtain ⟨hconnections, hmaxInflight, hecho, hmessages⟩ := reading_tcp h
  obtain ⟨hudpInflight, hudpTimeout⟩ := reading_udp h
  obtain ⟨hterminations, hfailures⟩ := reading_predicates h hc
  obtain ⟨hinterval, hflush⟩ := reading_flush h hc
  have hmode := reading_grpcMode h
  have htimeout := reading_timeout h
  have htls := reading_tlsContext h
  have hjitter := reading_jitter h
  have hstart := reading_start h hc
  apply Members.ext
  all_goals try assumption
  -- what is in none of these groups is written and read as it is
  all_goals obtain ⟨request, -, ⟨⟩⟩ := bind_ok_iff.mp h
  case tunnelProtocol => exact hc.tunnel.1.symm
  case tunnelUri => exact hc.tunnel.2.1.symm
  case encapPort => exact hc.tunnel.2.2.1.symm
  case tunnelTlsContext => exact hc.tunnel.2.2.2.symm
  case h2UseMultipleConnections => exact hsingle.symm
  all_goals rfl

/-! ## The message they make -/

/-- Every header of a request has a key. -/
def KeysGiven (request : RequestChoice) : Prop :=
  ∀ r, request = .requestOptions r → ∀ h ∈ r.requestHeaders, h.key ≠ ""

theorem requestChoice_normalized {request : RequestChoice}
    (h : m.requestChoice = .ok request) (hkeys : KeysGiven request) :
    m.normalized.requestChoice = .ok request := by
  unfold requestChoice at h ⊢
  rw [show m.normalized.requestSource = m.requestSource from rfl,
    show m.normalized.requestSourcePluginConfig = m.requestSourcePluginConfig from rfl]
  split
  · rename_i hsource
    rw [if_pos hsource] at h
    exact h
  · rename_i hsource
    rw [if_neg hsource] at h
    cases hplugin : m.requestSourcePluginConfig with
    | some config =>
      rw [hplugin] at h
      exact h
    | none =>
      rw [hplugin] at h
      obtain ⟨hs, hsplit, hrequest⟩ := bind_ok_iff.mp h
      cases hrequest
      refine bind_ok_iff.mpr ⟨hs, ?_, rfl⟩
      change (m.requestHeaders.map trimmed).mapM splitHeader = .ok hs
      rw [map_trimmed hsplit]
      exact mapM_headerLine hsplit (hkeys _ rfl)

theorem explicit_explicit (e : Endpoint) : explicit (explicit e) = explicit e := rfl

theorem uriChoice_normalized (m : Members) : m.normalized.uriChoice = m.uriChoice := by
  unfold uriChoice
  rw [show m.normalized.uri = m.uri from rfl]
  cases m.uri with
  | some u => rfl
  | none =>
    have hendpoints : (m.multiTargetEndpoints.map explicit).map explicit
        = m.multiTargetEndpoints.map explicit := by
      rw [List.map_map]
      exact List.map_congr_left fun e _ => explicit_explicit e
    exact congrArg (fun es => UriChoice.multiTarget
      { path := some m.multiTargetPath, useHttps := some m.multiTargetUseHttps
        endpoints := es }) hendpoints

theorem streams_normalized (h : m.streamModeEnabled = true) :
    m.normalized.streams = m.streams ∧ m.normalized.maxInflightPerStream = m.maxInflightPerStream
      ∧ m.normalized.streamDrainDuration = m.streamDrainDuration :=
  ⟨if_pos h, if_pos h, if_pos (by rw [h]; rfl)⟩

theorem tcp_normalized (h : m.tcp = true) :
    m.normalized.tcpConnections = m.tcpConnections
      ∧ m.normalized.tcpMaxInflight = m.tcpMaxInflight
      ∧ m.normalized.tcpExpectEcho = m.tcpExpectEcho
      ∧ m.normalized.tcpMaxMessages = m.tcpMaxMessages
      ∧ m.normalized.streamDrainDuration = m.streamDrainDuration :=
  ⟨if_pos h, if_pos h, if_pos h, if_pos h, if_pos (by rw [h, Bool.or_true])⟩

theorem udp_normalized (h : m.udp = true) :
    m.normalized.udpMaxInflight = m.udpMaxInflight ∧ m.normalized.udpTimeout = m.udpTimeout :=
  ⟨if_pos h, if_pos h⟩

/-- **The members that come back make the same message.** -/
theorem toCommandLineOptions_normalized (h : m.toCommandLineOptions = .ok written)
    (hkeys : ∀ request, written.requestOptions = some request → KeysGiven request) :
    m.normalized.toCommandLineOptions = .ok written := by
  obtain ⟨request, hchoice, hfields⟩ := bind_ok_iff.mp h
  have hfields := (Except.ok.inj hfields).symm
  have hgiven : KeysGiven request := hkeys request (by rw [hfields])
  subst hfields
  refine bind_ok_iff.mpr ⟨request, requestChoice_normalized hchoice hgiven, congrArg Except.ok ?_⟩
  clear h hkeys
  congr 1
  case e_grpcStream =>
    change (if m.grpcStreamEnabled = true then _ else none) = _
    split
    · rename_i hon
      obtain ⟨h1, h2, h3⟩ :=
        streams_normalized (m := m) (by unfold streamModeEnabled; rw [hon]; rfl)
      rw [h1, h2, h3]
    · rfl
  case e_websocket =>
    change (if m.websocket = true then _ else none) = _
    split
    · rename_i hon
      obtain ⟨h1, h2, h3⟩ :=
        streams_normalized (m := m) (by unfold streamModeEnabled; rw [hon, Bool.or_true])
      rw [h1, h2, h3]
      rfl
    · rfl
  case e_tcp =>
    change (if m.tcp = true then _ else none) = _
    split
    · rename_i hon
      obtain ⟨h1, h2, h3, h4, h5⟩ := tcp_normalized hon
      rw [h1, h2, h3, h4, h5]
    · rfl
  case e_udp =>
    change (if m.udp = true then _ else none) = _
    split
    · rename_i hon
      obtain ⟨h1, h2⟩ := udp_normalized hon
      rw [h1, h2]
    · rfl
  case e_uri => rw [uriChoice_normalized]
  case e_statsFlushInterval =>
    by_cases hpos : 0 < m.statsFlushIntervalDuration.seconds
        ∨ 0 < m.statsFlushIntervalDuration.nanos
    · have hsame : m.normalized.statsFlushIntervalDuration = m.statsFlushIntervalDuration :=
        if_pos hpos
      rw [hsame]
      rfl
    · have hzero : m.normalized.statsFlushIntervalDuration = durationOfSeconds 0 := if_neg hpos
      rw [hzero, if_neg hpos, if_neg (by decide)]
      rfl
  case e_jitterUniform =>
    by_cases hpos : 0 < m.jitterUniform
    · have hsame : m.normalized.jitterUniform = m.jitterUniform := if_pos hpos
      rw [hsame]
    · have hzero : m.normalized.jitterUniform = 0 := if_neg hpos
      rw [hzero, if_neg hpos, if_neg (by decide)]

/-! ## They are accepted -/

theorem validateStreams_normalized (h : m.streamModeEnabled = true) :
    m.normalized.validateStreams = m.validateStreams := by
  obtain ⟨hstreams, hinflight, -⟩ := streams_normalized h
  unfold validateStreams
  rw [hstreams, hinflight]
  rfl

theorem validateUdp_normalized (h : m.udp = true) :
    m.normalized.validateUdp = m.validateUdp := by
  obtain ⟨hinflight, htimeout⟩ := udp_normalized h
  have hheaders : m.normalized.requestHeaders.isEmpty = m.requestHeaders.isEmpty := List.isEmpty_map
  unfold validateUdp
  rw [hinflight, htimeout, hheaders]
  rfl

theorem validateTcp_normalized (h : m.tcp = true) :
    m.normalized.validateTcp = m.validateTcp := by
  obtain ⟨hconnections, hinflight, hecho, -, -⟩ := tcp_normalized h
  have hheaders : m.normalized.requestHeaders.isEmpty = m.requestHeaders.isEmpty := List.isEmpty_map
  unfold validateTcp
  rw [hconnections, hinflight, hecho, hheaders]
  rfl

theorem validateTarget_normalized (m : Members) (env : Outside) :
    m.normalized.validateTarget env = m.validateTarget env := by
  have hudp : onlyIf m.udp m.normalized.validateUdp = onlyIf m.udp m.validateUdp := by
    cases h : m.udp with
    | false => rfl
    | true => rw [validateUdp_normalized h]
  have htcp : onlyIf m.tcp m.normalized.validateTcp = onlyIf m.tcp m.validateTcp := by
    cases h : m.tcp with
    | false => rfl
    | true => rw [validateTcp_normalized h]
  have hendpoints : m.normalized.multiTargetEndpoints.isEmpty = m.multiTargetEndpoints.isEmpty :=
    List.isEmpty_map
  unfold validateTarget
  rw [hendpoints, show m.normalized.uri = m.uri from rfl]
  cases m.uri with
  | none => rfl
  | some uri =>
    change (do
      check (parseUri env uri "http").isSome "Invalid target URI: ''"
      onlyIf m.udp m.normalized.validateUdp
      onlyIf m.tcp m.normalized.validateTcp
      check (m.multiTargetEndpoints.isEmpty && m.multiTargetPath == "" && !m.multiTargetUseHttps)
        "URI and --multi-target-* options cannot both be specified.") = _
    rw [hudp, htcp]

/-- `validate` refuses a message that has a header without a key, as Envoy's rules for one say. -/
def RefusesEmptyKeys (env : Outside) : Prop :=
  ∀ message request, env.validate message = .ok () → message.requestOptions = some request →
    KeysGiven request

theorem Valid.normalized {env : Outside} (h : Valid env m)
    (henv : RefusesEmptyKeys env) : Valid env m.normalized where
  body := h.body
  grpc := h.grpc
  websocket := h.websocket
  streams := fun hmode => (validateStreams_normalized (m := m) hmode).trans (h.streams hmode)
  single := h.single
  concurrency := h.concurrency
  source := h.source
  target := (validateTarget_normalized m env).trans h.target
  message := by
    obtain ⟨written, hwritten, hvalid⟩ := bind_ok_iff.mp h.message
    have hkeys : ∀ request, written.requestOptions = some request → KeysGiven request :=
      fun request => henv written request (mapError_ok_iff.mp hvalid)
    exact bind_ok_iff.mpr ⟨written, toCommandLineOptions_normalized hwritten hkeys, hvalid⟩

/-- A limiter of its own still has no bursts and no jitter beside it. -/
theorem limiterAlone_written {o : CommandLineOptions} (halone : LimiterAlone o)
    (h : (reading o).toCommandLineOptions = .ok written) : LimiterAlone written := by
  obtain ⟨request, -, hfields⟩ := bind_ok_iff.mp h
  cases hfields
  intro hlimiter
  obtain ⟨hburst, hjitter⟩ := halone hlimiter
  refine ⟨hburst, fun d hd => ?_⟩
  change (if 0 < (reading o).jitterUniform then _ else none) = some d at hd
  have hzero : (reading o).jitterUniform = 0 := by
    change (o.jitterUniform.map durationToNanoseconds).getD 0 = 0
    cases hj : o.jitterUniform with
    | none => rfl
    | some d =>
      obtain ⟨hs, hn⟩ := hjitter d hj
      change Span.wrap (d.seconds * 1000000000 + d.nanos) = 0
      rw [hs, hn]
      rfl
  rw [hzero, if_neg (by decide)] at hd
  cases hd

end Members

/--
**Options that are written can be read, and are read as what they were, normalized.**
-/
theorem construct_toCommandLineOptions {env : Outside} {o : CommandLineOptions} {m : Members}
    (henv : Members.RefusesEmptyKeys env) (h : construct env o = .ok m) :
    ∃ written, m.toCommandLineOptions = .ok written
      ∧ construct env written = .ok m.normalized := by
  obtain ⟨htunnel, halone, rfl, hvalid⟩ := construct_ok_iff.mp h
  obtain ⟨written, hwritten, -⟩ := bind_ok_iff.mp hvalid.message
  have hread := Members.reading_toCommandLineOptions (Members.coherent_reading o) hvalid.single
    hwritten
  have hno : written.tunnelOptions = none := by
    obtain ⟨request, -, hfields⟩ := bind_ok_iff.mp hwritten
    rw [← Except.ok.inj hfields]
  exact ⟨written, hwritten, construct_ok_iff.mpr
    ⟨hno, Members.limiterAlone_written halone hwritten, hread.symm, hvalid.normalized henv⟩⟩

/-- A plain system that refuses a header without a key. -/
def Outside.keyed : Outside :=
  { Outside.plain with
    validate := fun message => match message.requestOptions with
      | some (.requestOptions r) =>
        if r.requestHeaders.all (·.key != "") then .ok () else .error (.proto "key")
      | _ => .ok () }

theorem Outside.keyed_refusesEmptyKeys : Members.RefusesEmptyKeys Outside.keyed := by
  rintro message _ hvalid hrequest r rfl h hmem
  change (match message.requestOptions with
    | some (.requestOptions r) =>
      if r.requestHeaders.all (·.key != "") then Except.ok ()
      else .error (ValidationError.proto "key")
    | _ => .ok ()) = _ at hvalid
  rw [hrequest] at hvalid
  dsimp only at hvalid
  split at hvalid
  · rename_i hall
    simpa using List.all_eq_true.mp hall h hmem
  · cases hvalid

/-- Seven connections to an echo server. -/
def sevenConnections : CommandLineOptions :=
  { uri := some (.uri "tcp://127.0.0.1:80"), tcp := some { connections := some 7 }
    requestOptions := some (.requestOptions { requestBodySize := some 10 }) }

/-- Over TCP the seven connections come back. -/
theorem construct_toCommandLineOptions_sevenConnections : ∃ m written,
    construct Outside.keyed sevenConnections = .ok m ∧ m.toCommandLineOptions = .ok written
      ∧ construct Outside.keyed written = .ok m.normalized ∧ m.normalized.tcpConnections = 7 := by
  obtain ⟨m, hm, hseven⟩ : ∃ m, construct Outside.keyed sevenConnections = .ok m
      ∧ m.normalized.tcpConnections = 7 := ⟨_, rfl, rfl⟩
  obtain ⟨written, hwritten, hread⟩ :=
    construct_toCommandLineOptions Outside.keyed_refusesEmptyKeys hm
  exact ⟨m, written, hm, hwritten, hread, hseven⟩

/-- A message over HTTP with something for every other mode, and with signs that are not kept. -/
def everyMode : CommandLineOptions :=
  { uri := some (.uri "http://127.0.0.1:80/")
    tcp := some { connections := some 7, maxInflightPerConnection := some 7
                  expectEcho := some false, maxMessagesPerConnection := some 7 }
    udp := some { maxInflight := some 7, timeout := some (durationOfSeconds 7) }
    grpcStream := some { streams := some 7, maxInflightPerStream := some 7
                         drainDuration := some (durationOfSeconds 7) }
    requestOptions := some (.requestOptions { requestHeaders := [⟨"a ", " b"⟩] })
    jitterUniform := some (Duration.new ⟨-7, by decide⟩)
    statsFlushInterval := some (.duration (Duration.new ⟨-7, by decide⟩)) }

/-- A target without the address of its endpoint. -/
def noAddress : CommandLineOptions :=
  { uri := some (.multiTarget { path := some "/", endpoints := [{ port := some 80 }] }) }

/-- What comes back differs in the parts of other modes, in the white space of a header, in what
is negative, and in a field that was absent. -/
theorem construct_toCommandLineOptions_differs :
    (∃ m written back, construct Outside.keyed everyMode = .ok m
        ∧ m.toCommandLineOptions = .ok written ∧ construct Outside.keyed written = .ok back
        ∧ (m.tcpConnections, back.tcpConnections) = (7, 1)
        ∧ (m.tcpMaxInflight, back.tcpMaxInflight) = (7, 256)
        ∧ (m.tcpExpectEcho, back.tcpExpectEcho) = (false, true)
        ∧ (m.tcpMaxMessages, back.tcpMaxMessages) = (7, 0)
        ∧ (m.udpMaxInflight, back.udpMaxInflight) = (7, 256)
        ∧ (m.udpTimeout.ns, back.udpTimeout.ns) = (7000000000, 1000000000)
        ∧ (m.streams, back.streams) = (7, 20)
        ∧ (m.maxInflightPerStream, back.maxInflightPerStream) = (7, 256)
        ∧ (m.streamDrainDuration.ns, back.streamDrainDuration.ns) = (7000000000, 500000000)
        ∧ (m.requestHeaders, back.requestHeaders) = (["a : b"], ["a:b"])
        ∧ (m.jitterUniform.ns, back.jitterUniform.ns) = (-7, 0)
        ∧ (m.statsFlushIntervalDuration.nanos, back.statsFlushIntervalDuration.nanos) = (-7, 0))
      ∧ ∃ m written back, construct Outside.keyed noAddress = .ok m
        ∧ m.toCommandLineOptions = .ok written ∧ construct Outside.keyed written = .ok back
        ∧ m.multiTargetEndpoints = [{ port := some 80 }]
        ∧ back.multiTargetEndpoints = [{ address := some "", port := some 80 }] :=
  ⟨⟨_, _, _, rfl, rfl, rfl, rfl, rfl, rfl, rfl, rfl, rfl, rfl, rfl, rfl, rfl, rfl, rfl⟩,
    _, _, _, rfl, rfl, rfl, rfl, rfl⟩

end Sortie.Engine.OptionsImpl
