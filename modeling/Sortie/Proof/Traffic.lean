import Sortie.Engine.StreamDecoder
import Mathlib.Algebra.BigOperators.Finprod

/-!
# What becomes of a request

Every request the client accepts ends in one of three ways, or is still with the pool
when `finish` stops waiting. What the end of a request does to the counters depends on
how it ended, on the HTTP status and on the gRPC status its decoder had seen by then,
and on nothing else: that is `score`, the list of the counters it moves. The counters
of a client are then the sum of the scores of the requests that have ended, and every
equation between counters is an equation between the entries of one score.
-/

namespace Sortie.Engine

/-! ## What a callback does to the client -/

/-- The counters that user defined plugins move; nothing here depends on them. -/
def Counter.isPlugin : Counter → Bool
  | .userDefinedPluginHandleHeadersFailure | .userDefinedPluginHandleDataFailure => true
  | _ => false

namespace BenchmarkClient

/-- So many requests were taken off the outstanding ones, and these counters were moved. -/
structure Moves (c c' : BenchmarkClient) (done : Nat) (ks : List Counter) : Prop where
  counters : ∀ k, k.isPlugin = false → c'.counters k = c.counters k + ks.count k
  outstanding : c'.requestsOutstanding = c.requestsOutstanding - done
  grpc : c'.grpc = c.grpc
  finished : c'.finished = c.finished

variable {c c' c'' : BenchmarkClient} {done done' : Nat} {ks ks' : List Counter}

theorem Moves.refl (c : BenchmarkClient) : Moves c c 0 [] := ⟨fun _ _ => rfl, rfl, rfl, rfl⟩

theorem Moves.trans (h : Moves c c' done ks) (h' : Moves c' c'' done' ks') :
    Moves c c'' (done + done') (ks ++ ks') where
  counters := fun k hk => by
    rw [h'.counters k hk, h.counters k hk, List.count_append]
    omega
  outstanding := by
    rw [h'.outstanding, h.outstanding]
    omega
  grpc := h'.grpc.trans h.grpc
  finished := h'.finished.trans h.finished

theorem moves_inc (c : BenchmarkClient) (k : Counter) : Moves c (c.inc k) 0 [k] := by
  refine { Moves.refl c with counters := fun k' _ => ?_ }
  show (if k' = k then c.counters k' + 1 else c.counters k') = _
  rw [List.count_singleton]
  by_cases hk : k' = k
  · rw [if_pos hk, if_pos (beq_iff_eq.mpr hk.symm)]
  · rw [if_neg hk, if_neg (fun h => hk (beq_iff_eq.mp h).symm)]
    rfl

theorem moves_inc_plugin (c : BenchmarkClient) {k : Counter} (hk : k.isPlugin = true) :
    Moves c (c.inc k) 0 [] := by
  refine { Moves.refl c with counters := fun k' hk' => if_neg fun h => ?_ }
  rw [h, hk] at hk'
  cases hk'

theorem moves_plugins {k : Counter} (hk : k.isPlugin = true) (plugins : List Bool) :
    ∀ c : BenchmarkClient,
      Moves c (plugins.foldl (fun c ok => if ok then c else c.inc k) c) 0 [] := by
  induction plugins with
  | nil =>
    intro c
    exact Moves.refl c
  | cons ok rest ih =>
    intro c
    rw [List.foldl_cons]
    cases ok with
    | true => exact ih c
    | false => exact (moves_inc_plugin c hk).trans (ih _)

section

variable (c : BenchmarkClient)

theorem moves_onRequestDone : Moves c c.onRequestDone 1 [] := by
  refine { Moves.refl c with outstanding := ?_ }
  show (if 0 < c.requestsOutstanding then c.requestsOutstanding - 1
    else c.requestsOutstanding) = _
  split <;> omega

/-- What a gRPC status adds to. -/
def grpcScore (grpcStatus : Option Nat) : List Counter :=
  .grpcStatus grpcStatus :: if grpcStatus = some 0 then [] else [.grpcError]

theorem moves_trackGrpcStatus (s : Option Nat) :
    Moves c (c.trackGrpcStatus s).2 0 (grpcScore s) := by
  unfold trackGrpcStatus grpcScore
  by_cases hs : s = some 0
  · rw [if_pos hs, if_pos hs]
    exact moves_inc c _
  · rw [if_neg hs, if_neg hs]
    exact (moves_inc c _).trans (moves_inc _ _)

/-- What a response adds to. -/
def responseScore (grpc : Bool) (status : Nat) (grpcStatus : Option Nat) : List Counter :=
  (if grpc then grpcScore grpcStatus else [])
    ++ if statusCounter status = .http2xx ∧ grpc = true ∧ grpcStatus ≠ some 0 then []
      else [statusCounter status]

theorem moves_scoreResponse (status : Nat) (s : Option Nat) :
    Moves c (c.scoreResponse status s) 0 (responseScore c.grpc status s) := by
  unfold scoreResponse responseScore
  by_cases hg : c.grpc = true
  · have hok : (c.trackGrpcStatus s).1 = decide (s = some 0) := by
      unfold trackGrpcStatus
      dsimp only
      split <;> simp_all
    rw [if_pos hg, if_pos hg]
    dsimp only
    rw [hok, hg]
    have htrack := moves_trackGrpcStatus c s
    by_cases hs : statusCounter status = .http2xx ∧ s ≠ some 0
    · rw [if_pos (by simp [hs.1, hs.2]), if_pos ⟨hs.1, rfl, hs.2⟩]
      exact htrack.trans (Moves.refl _)
    · rw [if_neg (fun h => hs ⟨h.1, by simpa using h.2.2⟩), if_neg (fun h => hs ⟨h.1, h.2.2⟩)]
      exact htrack.trans (moves_inc _ _)
  · rw [if_neg hg, if_neg hg]
    dsimp only
    rw [if_neg (fun h => hg h.2.1), if_neg (fun h => hg h.2.1)]
    exact moves_inc c _

/-- What `onComplete` begins with, however the request ended. -/
theorem moves_completed :
    Moves c { c with requestsCompleted := c.requestsCompleted + 1 }.onRequestDone 1 [] := by
  obtain ⟨hc, ho, hg, hf⟩ :=
    moves_onRequestDone { c with requestsCompleted := c.requestsCompleted + 1 }
  exact ⟨hc, ho, hg, hf⟩

section

variable (status : Nat) (s : Option Nat) (plugins : List Bool)

theorem moves_onComplete_response :
    Moves c (c.onComplete true status s plugins) 1 (responseScore c.grpc status s) := by
  have hscore := (moves_completed c).trans (moves_scoreResponse _ status s)
  have := hscore.trans (moves_plugins (k := .userDefinedPluginHandleHeadersFailure) rfl plugins _)
  rwa [List.nil_append, List.append_nil] at this

theorem moves_onComplete_reset :
    Moves c (c.onComplete false status s plugins) 1
      (.streamResets :: if c.grpc then grpcScore s else []) := by
  have hreset := (moves_completed c).trans (moves_inc _ .streamResets)
  unfold onComplete
  dsimp only
  rw [if_neg Bool.false_ne_true]
  have hplugins := moves_plugins (k := .userDefinedPluginHandleHeadersFailure) rfl plugins
  by_cases hg : c.grpc = true
  · rw [if_pos hg, if_pos (hreset.grpc.trans hg)]
    have := (hreset.trans (moves_trackGrpcStatus _ s)).trans (hplugins _)
    rwa [List.append_nil] at this
  · rw [if_neg hg, if_neg (fun h => hg (hreset.grpc.symm.trans h))]
    have := hreset.trans (hplugins _)
    rwa [List.append_nil] at this

end

/-- The counter of a phase. -/
def phaseCounter : StreamResetPhase → Counter
  | .beforeHeaders => .streamResetsBeforeHeaders
  | .incompleteBody => .streamResetsIncompleteBody

theorem moves_onStreamReset (phase : StreamResetPhase) (reason : StreamResetReason) :
    Moves c (c.onStreamReset phase reason) 0 [phaseCounter phase, .streamResetReason reason] := by
  cases phase with
  | beforeHeaders | incompleteBody => exact (moves_inc c _).trans (moves_inc _ _)

/-- What a pool failure adds to. -/
def poolFailureScore : PoolFailureReason → List Counter
  | .overflow => [.poolOverflow]
  | .localConnectionFailure => [.poolConnectionFailure, .poolFailureLocalConnectionFailure]
  | .remoteConnectionFailure => [.poolConnectionFailure, .poolFailureRemoteConnectionFailure]
  | .timeout => [.poolFailureTimeout]

theorem moves_onPoolFailure (reason : PoolFailureReason) :
    Moves c (c.onPoolFailure reason) 1 (poolFailureScore reason) := by
  cases reason with
  | overflow | timeout => exact (moves_inc c _).trans (moves_onRequestDone _)
  | localConnectionFailure | remoteConnectionFailure =>
    exact ((moves_inc c _).trans (moves_inc _ _)).trans (moves_onRequestDone _)

end

end BenchmarkClient

/-! ## What a callback on a decoder does -/

open BenchmarkClient in
/-- The counters that the end of a request moves. -/
def score (grpc : Bool) (status : Nat) (grpcStatus : Option Nat) : Terminal → List Counter
  | .response => responseScore grpc status grpcStatus
  | .reset phase reason =>
    phaseCounter phase :: .streamResetReason reason :: .streamResets
      :: if grpc then grpcScore grpcStatus else []
  | .poolFailure reason => poolFailureScore reason

def Ended.score (grpc : Bool) (e : Ended) : List Counter :=
  Engine.score grpc e.status e.grpcStatus e.terminal

namespace StreamDecoder

/-- The response goes on and the client is left alone, or the request has ended and is scored. -/
def Result.Fits (c : BenchmarkClient) (terminal : Terminal) (r : Result) : Prop :=
  (r.called = none ∧ c.Moves r.client 0 [])
    ∨ ∃ args, r.called = some args
      ∧ c.Moves r.client 1
        (score c.grpc (r.decoder.responseHeaders.getD 0) r.decoder.grpcStatus terminal)

variable (d : StreamDecoder) (c : BenchmarkClient)

theorem fits_onComplete (plugins : List Bool) :
    (d.onComplete c true plugins).Fits c .response :=
  Or.inr ⟨_, rfl, BenchmarkClient.moves_onComplete_response c _ _ plugins⟩

theorem fits_decodeHeaders (status : Nat) (grpcStatus : Option Nat) (endStream : Bool)
    (plugins : List Bool) :
    (d.decodeHeaders c status grpcStatus endStream plugins).Fits c .response := by
  unfold decodeHeaders
  dsimp only
  split
  · exact fits_onComplete _ c plugins
  · exact Or.inl ⟨rfl, BenchmarkClient.Moves.refl c⟩

theorem fits_decodeData (endStream : Bool) (plugins dataPlugins : List Bool) :
    (d.decodeData c endStream plugins dataPlugins).Fits c .response := by
  have hdata := BenchmarkClient.moves_plugins (k := .userDefinedPluginHandleDataFailure) rfl
    dataPlugins
  unfold decodeData
  dsimp only
  split
  · rcases fits_onComplete { d with complete := endStream } c plugins with
      ⟨hnone, -⟩ | ⟨args, hargs, hmoves⟩
    · cases hnone
    · refine Or.inr ⟨args, hargs, ?_⟩
      have := hmoves.trans (hdata _)
      rwa [List.append_nil] at this
  · exact Or.inl ⟨rfl, hdata c⟩

theorem fits_decodeTrailers (grpcStatus : Option Nat) (plugins : List Bool) :
    (d.decodeTrailers c grpcStatus plugins).Fits c .response :=
  fits_onComplete _ c plugins

theorem fits_onResetStream (reason : StreamResetReason) (plugins : List Bool) :
    (d.onResetStream c reason plugins).Fits c (.reset d.phase reason) := by
  have hreset := BenchmarkClient.moves_onStreamReset c d.phase reason
  have := hreset.trans (BenchmarkClient.moves_onComplete_reset _ (d.responseHeaders.getD 0)
    d.grpcStatus plugins)
  rw [hreset.grpc] at this
  exact Or.inr ⟨_, rfl, this⟩

theorem fits_onPoolFailure (reason : PoolFailureReason) :
    (d.onPoolFailure c reason).Fits c (.poolFailure reason) :=
  Or.inr ⟨_, rfl, BenchmarkClient.moves_onPoolFailure c reason⟩

end StreamDecoder

/-! ## The entries of a score -/

theorem statusCounter_cases (status : Nat) :
    BenchmarkClient.statusCounter status = .http1xx
      ∨ BenchmarkClient.statusCounter status = .http2xx
      ∨ BenchmarkClient.statusCounter status = .http3xx
      ∨ BenchmarkClient.statusCounter status = .http4xx
      ∨ BenchmarkClient.statusCounter status = .http5xx
      ∨ BenchmarkClient.statusCounter status = .httpXxx := by
  unfold BenchmarkClient.statusCounter
  split_ifs <;> simp

/-- One for a request that ended with a response. -/
def Terminal.responses : Terminal → Nat
  | .response => 1
  | _ => 0

/-- One for a request that ended with a response or a reset, so not in the pool. -/
def Terminal.answers : Terminal → Nat
  | .poolFailure _ => 0
  | _ => 1

/-- The counters that a gRPC status moves. -/
def Counter.isGrpc : Counter → Bool
  | .grpcError | .grpcStatus _ => true
  | _ => false

/-- The counters of the classes of HTTP status. -/
def Counter.isStatusClass : Counter → Bool
  | .http1xx | .http2xx | .http3xx | .http4xx | .http5xx | .httpXxx => true
  | _ => false

namespace Score

open BenchmarkClient

variable (grpc : Bool) (status : Nat) (s : Option Nat) (t : Terminal)

theorem isStatusClass_statusCounter : (statusCounter status).isStatusClass = true := by
  rcases statusCounter_cases status with h | h | h | h | h | h <;> rw [h] <;> rfl

theorem isGrpc_statusCounter : (statusCounter status).isGrpc = false := by
  rcases statusCounter_cases status with h | h | h | h | h | h <;> rw [h] <;> rfl

section

variable {k : Counter}

/-- What is not in a list is counted zero times in it; here by a property that tells them apart. -/
theorem count_eq_zero {p : Counter → Bool} {ks : List Counter} {b : Bool}
    (hks : ∀ k' ∈ ks, p k' = b) (hk : p k = !b) : ks.count k = 0 := by
  rw [List.count_eq_zero]
  intro hmem
  rw [hks k hmem] at hk
  cases b <;> cases hk

theorem count_grpcScore (hk : k.isGrpc = false) : (grpcScore s).count k = 0 := by
  refine count_eq_zero (p := Counter.isGrpc) (b := true) (fun k' hk' => ?_) hk
  rcases List.mem_cons.mp hk' with rfl | hk'
  · rfl
  · split at hk'
    · cases hk'
    · obtain rfl := List.mem_singleton.mp hk'
      rfl

/-- Apart from what concerns gRPC, a response adds to its status class; in gRPC mode a call that
failed with a good HTTP status is left out there. -/
theorem count_response (hk : k.isGrpc = false) :
    (score grpc status s .response).count k
      = if statusCounter status = .http2xx ∧ grpc = true ∧ s ≠ some 0 then 0
        else [statusCounter status].count k := by
  have hgrpc : (if grpc then grpcScore s else []).count k = 0 := by
    split
    · exact count_grpcScore s hk
    · rfl
  rw [score, responseScore, List.count_append, hgrpc, Nat.zero_add]
  split <;> rfl

theorem count_response_zero (hk : k.isGrpc = false) (hk' : k.isStatusClass = false) :
    (score grpc status s .response).count k = 0 := by
  have hclass : [statusCounter status].count k = 0 :=
    count_eq_zero (p := Counter.isStatusClass) (b := true)
      (fun k' h => by rw [List.mem_singleton.mp h]; exact isStatusClass_statusCounter status) hk'
  rw [count_response grpc status s hk, hclass]
  split <;> rfl

/-- Apart from what concerns gRPC, a reset adds to these three. -/
theorem count_reset (phase : StreamResetPhase) (reason : StreamResetReason) (hk : k.isGrpc = false)
    :
    (score grpc status s (.reset phase reason)).count k
      = [phaseCounter phase, .streamResetReason reason, .streamResets].count k := by
  have hgrpc : (if grpc then grpcScore s else []).count k = 0 := by
    split
    · exact count_grpcScore s hk
    · rfl
  show ([phaseCounter phase, .streamResetReason reason, .streamResets]
    ++ if grpc then grpcScore s else []).count k = _
  rw [List.count_append, hgrpc, Nat.add_zero]

/-- The counters that the end of a request moves whatever the statuses are. -/
def marks : Terminal → List Counter
  | .response => []
  | .reset phase reason => [phaseCounter phase, .streamResetReason reason, .streamResets]
  | .poolFailure reason => poolFailureScore reason

theorem count_score (hk : k.isGrpc = false) (hk' : k.isStatusClass = false) :
    (score grpc status s t).count k = (marks t).count k := by
  cases t with
  | response => exact count_response_zero grpc status s hk hk'
  | reset phase reason => exact count_reset grpc status s phase reason hk
  | poolFailure reason => rfl

end

/-- Every end of a request is one of the five. -/
theorem one_outcome :
    1 = t.responses + ([.streamResets, .poolOverflow, .poolConnectionFailure,
      .poolFailureTimeout].map ((score grpc status s t).count ·)).sum := by
  simp (disch := decide) only [List.map_cons, List.map_nil, count_score]
  cases t with
  | response => rfl
  | reset phase reason => cases phase <;> rfl
  | poolFailure reason => cases reason <;> rfl

/-- Nothing of a score is counted as lost. -/
theorem not_lost : (score grpc status s t).count .httpInflightLost = 0 := by
  rw [count_score _ _ _ _ rfl rfl]
  cases t with
  | response => rfl
  | reset phase reason => cases phase <;> rfl
  | poolFailure reason => cases reason <;> rfl

/-- Outside gRPC mode a response is in one status class, and nothing else is in any. -/
theorem status_classes :
    t.responses = ([.http1xx, .http2xx, .http3xx, .http4xx, .http5xx, .httpXxx].map
      ((score false status s t).count ·)).sum := by
  cases t with
  | response =>
    have hclass : ∀ k : Counter, k.isGrpc = false →
        (score false status s .response).count k = [statusCounter status].count k := by
      intro k hk
      rw [count_response false status s hk, if_neg (fun h => by cases h.2.1)]
    simp (disch := decide) only [List.map_cons, List.map_nil, hclass]
    rcases statusCounter_cases status with h | h | h | h | h | h <;> rw [h] <;> rfl
  | reset phase reason => cases phase <;> rfl
  | poolFailure reason => cases reason <;> rfl

theorem count_grpcScore_grpcStatus (s' : Option Nat) :
    (grpcScore s).count (.grpcStatus s') = if s = s' then 1 else 0 := by
  have hrest : (if s = some 0 then [] else [Counter.grpcError]).count (.grpcStatus s') = 0 := by
    split <;> rfl
  rw [grpcScore, List.count_cons, hrest, Nat.zero_add]
  by_cases hs : s = s'
  · rw [if_pos hs, if_pos (by rw [hs]; exact beq_self_eq_true _)]
  · rw [if_neg hs, if_neg (fun h => hs (Counter.grpcStatus.inj (beq_iff_eq.mp h)))]

/-- In gRPC mode a response or a reset is counted under the one gRPC status it ended with. -/
theorem grpc_status (s' : Option Nat) :
    (score true status s t).count (.grpcStatus s') = if s = s' then t.answers else 0 := by
  cases t with
  | response =>
    have hclass : (if statusCounter status = .http2xx ∧ true = true ∧ s ≠ some 0 then []
        else [statusCounter status]).count (.grpcStatus s') = 0 := by
      refine count_eq_zero (p := Counter.isGrpc) (b := false) (fun k' hk' => ?_) rfl
      split at hk'
      · cases hk'
      · rw [List.mem_singleton.mp hk']
        exact isGrpc_statusCounter status
    rw [score, responseScore, if_pos rfl, List.count_append, hclass]
    exact count_grpcScore_grpcStatus s s'
  | reset phase reason =>
    show ([phaseCounter phase, .streamResetReason reason, .streamResets]
      ++ grpcScore s).count (.grpcStatus s') = _
    rw [List.count_append, count_grpcScore_grpcStatus]
    cases phase <;> exact Nat.zero_add _
  | poolFailure reason => cases reason <;> exact (ite_self 0).symm

theorem answers_eq : t.answers = t.responses + (score grpc status s t).count .streamResets := by
  simp (disch := decide) only [count_score]
  cases t with
  | response => rfl
  | reset phase reason => cases phase <;> rfl
  | poolFailure reason => cases reason <;> rfl

/-- A reset is counted once under how far the response had come. -/
theorem reset_phases :
    (score grpc status s t).count .streamResets
      = ([.streamResetsBeforeHeaders, .streamResetsIncompleteBody].map
          ((score grpc status s t).count ·)).sum := by
  simp (disch := decide) only [List.map_cons, List.map_nil, count_score]
  cases t with
  | response => rfl
  | reset phase reason => cases phase <;> rfl
  | poolFailure reason => cases reason <;> rfl

/-- A reset is counted once under its reason. -/
theorem reset_reasons :
    (score grpc status s t).count .streamResets
      = ((StreamResetReason.all.map Counter.streamResetReason).map
          ((score grpc status s t).count ·)).sum := by
  have hmarks := fun r => count_score grpc status s t (k := .streamResetReason r) rfl rfl
  simp only [List.map_map, Function.comp_def, hmarks,
    count_score grpc status s t (k := .streamResets) rfl rfl]
  cases t with
  | response => rfl
  | reset phase reason => cases phase <;> cases reason <;> decide
  | poolFailure reason => cases reason <;> rfl

/-- A connection failure is counted once under its side. -/
theorem connection_failures :
    (score grpc status s t).count .poolConnectionFailure
      = ([.poolFailureLocalConnectionFailure, .poolFailureRemoteConnectionFailure].map
          ((score grpc status s t).count ·)).sum := by
  simp (disch := decide) only [List.map_cons, List.map_nil, count_score]
  cases t with
  | response => rfl
  | reset phase reason => cases phase <;> rfl
  | poolFailure reason => cases reason <;> rfl

end Score

end Sortie.Engine
