import Sortie.Engine.BenchmarkClient

/-!
# Closed-loop accounting of the benchmark client

The backpressure of `tryStartRequest` compares `requests_initiated_ -
requests_completed_` with the capacity of the pool, so it is right as long as that
difference is the number of requests the pool still holds.

It is not quite: `onComplete` counts a request as completed, `onPoolFailure` does
not. The difference is therefore the requests the pool holds *plus every pool
failure so far* (`slack_run`), and each failure takes one place away for good. The
accounting is exact in precisely those histories that have no pool failure.
-/

namespace Sortie.Proof

open Sortie.Engine

variable {c : BenchmarkClient} {w w' : World} {e : Call}

/-! ## What each callback does to the two tallies -/

/-- The part of a client its backpressure is computed from. -/
structure Tally where
  initiated : UInt64
  completed : UInt64
  capacity : UInt64
  backpressure : Bool

/-- A tally that has room for one more request. -/
def Tally.HasRoom (t : Tally) : Prop :=
  t.backpressure = true → t.initiated - t.completed < t.capacity

/-- The tally a client keeps. -/
def tally (c : BenchmarkClient) : Tally where
  initiated := c.requestsInitiated
  completed := c.requestsCompleted
  capacity := c.maxInFlight
  backpressure := c.provideResourceBackpressure

section

variable (c : BenchmarkClient)

@[simp] theorem tally_inc (k : Counter) : tally (c.inc k) = tally c := rfl

@[simp] theorem tally_onRequestDone : tally c.onRequestDone = tally c := rfl

@[simp] theorem tally_trackGrpcStatus (s : Option Nat) :
    tally (c.trackGrpcStatus s).2 = tally c := by
  unfold BenchmarkClient.trackGrpcStatus
  split <;> rfl

@[simp] theorem tally_scoreResponse (status : Nat) (s : Option Nat) :
    tally (c.scoreResponse status s) = tally c := by
  unfold BenchmarkClient.scoreResponse
  by_cases hg : c.grpc = true
  · simp only [hg, if_true]
    split <;> simp
  · simp [hg]

theorem tally_plugins (plugins : List Bool) (k : Counter) :
    tally (plugins.foldl (fun c ok => if ok then c else c.inc k) c) = tally c := by
  induction plugins generalizing c with
  | nil => rfl
  | cons ok rest ih =>
    rw [List.foldl_cons, ih]
    cases ok <;> simp

/-- A completion counts the request as completed, however it ended. -/
theorem tally_onComplete (success : Bool) (status : Nat) (s : Option Nat) (plugins : List Bool) :
    tally (c.onComplete success status s plugins) =
      { tally c with completed := (tally c).completed + 1 } := by
  unfold BenchmarkClient.onComplete
  rw [tally_plugins]
  cases success with
  | true => simp only [if_true, tally_scoreResponse, tally_onRequestDone]; rfl
  | false =>
    simp only [Bool.false_eq_true, if_false]
    split <;> simp only [tally_trackGrpcStatus, tally_inc, tally_onRequestDone] <;> rfl

/-- A pool failure leaves both tallies alone: the request stays initiated and not completed. -/
theorem tally_onPoolFailure (reason : PoolFailureReason) :
    tally (c.onPoolFailure reason) = tally c := by
  cases reason <;> rfl

end

section

variable {c' : BenchmarkClient} {pool : Bool} {r : Option Request}

/-- A refused start changes nothing. -/
theorem tryStartRequest_refused (h : c.tryStartRequest pool r = (none, c')) : c' = c := by
  unfold BenchmarkClient.tryStartRequest at h
  split at h
  · exact (Prod.mk.inj h).2.symm
  · split at h
    · exact (Prod.mk.inj h).2.symm
    · cases r with
      | none => exact (Prod.mk.inj h).2.symm
      | some r => exact absurd (Prod.mk.inj h).1 (by simp)

/-- A start that is accepted found room, and counts as initiated. -/
theorem tryStartRequest_accepted {d : StreamDecoder} (h : c.tryStartRequest pool r = (some d, c')) :
    (tally c).HasRoom ∧ tally c' = { tally c with initiated := (tally c).initiated + 1 } := by
  unfold BenchmarkClient.tryStartRequest at h
  split at h
  · exact absurd (Prod.mk.inj h).1 (by simp)
  · split at h
    · exact absurd (Prod.mk.inj h).1 (by simp)
    · rename_i hroom
      cases r with
      | none => exact absurd (Prod.mk.inj h).1 (by simp)
      | some r =>
        obtain rfl := (Prod.mk.inj h).2
        refine ⟨fun hbp => ?_, rfl⟩
        have hbp' : c.provideResourceBackpressure = true := hbp
        simp only [hbp', Bool.true_and, decide_eq_true_eq, UInt64.not_le] at hroom
        exact hroom

end

/-- With a pool and a request at hand, only the capacity check can refuse. -/
theorem tryStartRequest_isSome (c : BenchmarkClient) (r : Request) :
    (c.tryStartRequest true (some r)).1.isSome = true ↔ (tally c).HasRoom := by
  unfold BenchmarkClient.tryStartRequest Tally.HasRoom tally
  by_cases hbp : c.provideResourceBackpressure = true
  · by_cases hroom : c.maxInFlight ≤ c.requestsInitiated - c.requestsCompleted
    · simp [hbp, hroom]
    · have := UInt64.not_le.mp hroom
      simp [hbp, hroom, this]
  · simp [hbp]

/-! ## The law the two tallies really keep -/

/-- What the client believes to be in flight, beyond what the pool holds. -/
def slack (w : World) : UInt64 :=
  (tally w.client).initiated - (tally w.client).completed - UInt64.ofNat w.outstanding.length

/-- What a call can do: refuse, accept, complete a request or report a pool failure. -/
theorem call_cases (h : w.step e = some w') :
    (e.isPoolFailure = false ∧ tally w'.client = tally w.client
      ∧ w'.accepted = w.accepted ∧ w'.outstanding = w.outstanding)
    ∨ (e.isPoolFailure = false ∧ (tally w.client).HasRoom
      ∧ tally w'.client = { tally w.client with initiated := (tally w.client).initiated + 1 }
      ∧ w'.outstanding = w.accepted :: w.outstanding)
    ∨ (e.isPoolFailure = false
      ∧ tally w'.client = { tally w.client with completed := (tally w.client).completed + 1 }
      ∧ w'.accepted = w.accepted ∧ w'.outstanding.length + 1 = w.outstanding.length)
    ∨ (e.isPoolFailure = true ∧ tally w'.client = tally w.client
      ∧ w'.accepted = w.accepted ∧ w'.outstanding.length + 1 = w.outstanding.length) := by
  cases e with
  | tryStartRequest pool request =>
    simp only [World.step] at h
    split at h
    · rename_i c heq
      cases h
      exact Or.inl ⟨rfl, by rw [tryStartRequest_refused heq], rfl, rfl⟩
    · rename_i d c heq
      cases h
      obtain ⟨hroom, htally⟩ := tryStartRequest_accepted heq
      exact Or.inr (Or.inl ⟨rfl, hroom, htally, rfl⟩)
  | onComplete id success status s plugins =>
    simp only [World.step] at h
    split at h
    · rename_i hmem
      cases h
      refine Or.inr (Or.inr (Or.inl ⟨rfl, tally_onComplete .., rfl, ?_⟩))
      have := List.length_pos_of_mem hmem
      simp only [List.length_erase_of_mem hmem]
      omega
    · cases h
  | onPoolFailure id reason =>
    simp only [World.step] at h
    split at h
    · rename_i hmem
      cases h
      refine Or.inr (Or.inr (Or.inr ⟨rfl, tally_onPoolFailure .., rfl, ?_⟩))
      have := List.length_pos_of_mem hmem
      simp only [List.length_erase_of_mem hmem]
      omega
    · cases h

/-- **Every pool failure adds one, and nothing else adds anything.** -/
theorem slack_step (h : w.step e = some w') :
    slack w' = slack w + if e.isPoolFailure then 1 else 0 := by
  unfold slack
  rcases call_cases h with ⟨he, ht, -, ho⟩ | ⟨he, -, ht, ho⟩ | ⟨he, ht, -, ho⟩ | ⟨he, ht, -, ho⟩
  · simp [ht, ho, he]
  · simp only [ht, ho, he, List.length_cons, UInt64.ofNat_add]
    grind
  · simp only [ht, ← ho, he, UInt64.ofNat_add]
    grind
  · simp only [ht, ← ho, he, UInt64.ofNat_add]
    grind

/-- **The law.** In every history the client counts what the pool holds, plus every failure. -/
theorem slack_run {es : List Call} (h : Calls c es w) :
    slack w = UInt64.ofNat (es.countP Call.isPoolFailure) := by
  induction h with
  | nil => simp [slack, tally, World.init]
  | @snoc es e t u _ hs ih =>
    rw [slack_step hs, ih, List.countP_append, UInt64.ofNat_add]
    cases he : e.isPoolFailure <;> simp [he]

/-- Once a request was accepted under backpressure, the capacity is not zero. -/
def CapacityUsed (w : World) : Prop :=
  0 < w.accepted → (tally w.client).backpressure = true → 0 < (tally w.client).capacity

theorem capacityUsed_step (hw : CapacityUsed w) (h : w.step e = some w') : CapacityUsed w' := by
  unfold CapacityUsed
  rcases call_cases h with ⟨-, ht, ha, -⟩ | ⟨-, hroom, ht, -⟩ | ⟨-, ht, ha, -⟩ | ⟨-, ht, ha, -⟩
  · rw [ht, ha]; exact hw
  · rw [ht]
    intro _ hbp
    exact UInt64.lt_of_le_of_lt (UInt64.zero_le) (hroom hbp)
  · rw [ht, ha]; exact hw
  · rw [ht, ha]; exact hw

theorem capacityUsed_run {es : List Call} (h : Calls c es w) : CapacityUsed w :=
  h.invariant (fun h0 => absurd h0 (by simp [World.init]))
    (fun _ _ _ hw hs => capacityUsed_step hw hs)

/-! ## Closed-loop operation -/

/-- The backpressure of a client in the state `w` reflects what the pool really holds. -/
structure ClosedLoop (w : World) : Prop where
  /-- the two tallies differ by the number of requests the pool holds -/
  accounting : (w.client.requestsInitiated - w.client.requestsCompleted).toNat
    = w.outstanding.length % 2 ^ 64
  /-- a request that is at hand is refused only while the pool is full -/
  refusal : ∀ r, (w.client.tryStartRequest true (some r)).1 = none →
    w.client.provideResourceBackpressure = true
      ∧ w.client.maxInFlight.toNat ≤ w.outstanding.length
  /-- once every accepted request has ended, the next one is accepted -/
  accepts : 0 < w.accepted → w.outstanding = [] →
    ∀ r, (w.client.tryStartRequest true (some r)).1.isSome = true

theorem closedLoop_of_slack (h0 : slack w = 0) (hcap : CapacityUsed w) : ClosedLoop w := by
  have hdiff : (tally w.client).initiated - (tally w.client).completed
      = UInt64.ofNat w.outstanding.length := by
    unfold slack at h0
    grind
  constructor
  · have := congrArg UInt64.toNat hdiff
    simpa [tally] using this
  · intro r hr
    have hno : ¬ (tally w.client).HasRoom := by
      rw [← tryStartRequest_isSome (r := r), hr]
      simp
    simp only [Tally.HasRoom, hdiff, Classical.not_imp, UInt64.not_lt] at hno
    refine ⟨hno.1, ?_⟩
    have hle : w.client.maxInFlight.toNat ≤ (UInt64.ofNat w.outstanding.length).toNat := hno.2
    rw [UInt64.toNat_ofNat'] at hle
    exact Nat.le_trans hle (Nat.mod_le _ _)
  · intro hpos hnil r
    rw [tryStartRequest_isSome]
    intro hbp
    rw [hdiff, hnil]
    exact hcap hpos hbp

theorem slack_of_closedLoop (h : ClosedLoop w) : slack w = 0 := by
  have := h.accounting
  have hdiff : (tally w.client).initiated - (tally w.client).completed
      = UInt64.ofNat w.outstanding.length := by
    apply UInt64.toNat.inj
    simpa [tally] using this
  unfold slack
  rw [hdiff]
  simp

/--
**The backpressure is exact in a history precisely when no request failed in the pool.**

`onPoolFailure` takes a request off the outstanding ones without completing it. In
every other history the two tallies, the refusals and the acceptances are those of
a closed loop, in each of the states the history goes through.
-/
theorem closedLoop_iff_no_poolFailure {c : BenchmarkClient} {es : List Call} {w : World}
    (h : Calls c es w) :
    (∀ fs, fs <+: es → ∀ v, Calls c fs v → ClosedLoop v)
      ↔ ∀ e ∈ es, e.isPoolFailure = false := by
  constructor
  · intro hall
    induction h with
    | nil => simp
    | @snoc es e t u hr hs ih =>
      have hpre := ih (fun fs hfs => hall fs (hfs.trans (List.prefix_append es [e])))
      -- the last call leaves the slack at zero, so it was no failure
      have hlast := slack_run (Lts.Run.snoc hr hs)
      rw [slack_of_closedLoop (hall _ List.prefix_rfl u (Lts.Run.snoc hr hs)),
        List.countP_append, List.countP_eq_zero.mpr (by simpa using hpre)] at hlast
      intro e' he'
      rcases List.mem_append.mp he' with he' | he'
      · exact hpre e' he'
      · obtain rfl := List.mem_singleton.mp he'
        cases hf : e'.isPoolFailure with
        | false => rfl
        | true => simp [hf] at hlast
  · intro hno fs hfs v hv
    refine closedLoop_of_slack ?_ (capacityUsed_run hv)
    have h0 : fs.countP Call.isPoolFailure = 0 :=
      List.countP_eq_zero.mpr (fun e he => by simp [hno e (hfs.subset he)])
    rw [slack_run hv, h0]
    rfl

/-- One connection and no queueing: the pool holds one request at a time. -/
def oneAtATime : BenchmarkClient :=
  { protocol := .http11, provideResourceBackpressure := true, connectionLimit := 1,
    maxPendingRequests := 0 }

/-- A request that is answered: the loop stays closed. -/
theorem closedLoop_answered_request :
    ∃ w, Calls oneAtATime
        [.tryStartRequest true (some {}), .onComplete 0 true 200 none [true]] w
      ∧ ∀ fs, fs <+: [.tryStartRequest true (some {}), .onComplete 0 true 200 none [true]] →
          ∀ v, Calls oneAtATime fs v → ClosedLoop v := by
  refine ⟨_, Lts.Run.of_foldlM rfl, ?_⟩
  exact (closedLoop_iff_no_poolFailure (Lts.Run.of_foldlM rfl)).mpr (by decide)

/--
A request that times out in the pool: nothing is outstanding, and yet the client
counts one request in flight and refuses every further one.
-/
theorem closedLoop_lost_to_poolFailure :
    ∃ w, Calls oneAtATime [.tryStartRequest true (some {}), .onPoolFailure 0 .timeout] w
      ∧ w.accepted = 1 ∧ w.outstanding = []
      ∧ w.client.requestsInitiated - w.client.requestsCompleted = 1
      ∧ (w.client.tryStartRequest true (some {})).1 = none
      ∧ ¬ ClosedLoop w := by
  refine ⟨_, Lts.Run.of_foldlM rfl, rfl, rfl, rfl, rfl, ?_⟩
  intro h
  exact absurd (h.accepts (by decide) rfl {}) (by decide)

end Sortie.Proof
