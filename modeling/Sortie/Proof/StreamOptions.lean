import Sortie.Proof.Division
import Sortie.Proof.OptionsRead
import Sortie.Proof.TimeShape

/-!
# Options of the streaming modes

A worker of a streaming mode opens all its streams at once, so the limits of its pool
have to hold them. `validateStreams` checks some of the limits. The one on pending
requests is raised to fit instead, but before the message's own value is read, which
then replaces it. And `--websocket` is checked against the protocol, not against the
deprecated `h2` that overrides it.

What was proved of the load and the times of a plan holds of these members.
-/

namespace Sortie.Engine.OptionsImpl

open Proto Api Checks

namespace Members

variable (m : Members) (o : CommandLineOptions)

/-! ## The checks on streams -/

/-- What `validateStreams` checks of members that run on `n` workers. -/
structure StreamsFit (m : Members) (n : Nat) : Prop where
  connections : m.websocket = true → m.streams.toNat / n ≤ m.connections.toNat
  positive : 0 < m.streams.toNat
  streams : n ∣ m.streams.toNat
  rate : n ∣ m.requestsPerSecond.toNat
  inflight : 0 < m.maxInflightPerStream.toNat
  active : m.streams.toNat / n ≤ m.maxActiveRequests.toNat
  noPlugin : m.requestSourcePluginConfig = none
  noOutput : m.userDefinedOutputPluginConfigs = []
  noWarmup : m.simpleWarmup = false

theorem ne_zero_iff_toNat_pos {n : UInt32} : n ≠ 0 ↔ 0 < n.toNat := by
  rw [Nat.pos_iff_ne_zero, ne_eq, ne_eq, ← UInt32.toNat_inj]
  rfl

theorem stoi_auto : stoi "auto" = .error .invalidArgument := by decide

/-- The streaming modes need a number of workers that is written as a number. -/
theorem validateStreams_ok_iff : m.validateStreams = .ok () ↔
    ∃ n : Int, stoi m.concurrency = .ok n ∧ 0 < n ∧ StreamsFit m n.toNat := by
  -- the number the checks are made with, when there is one
  have hnumber : ∀ n : Int, 0 < n → ((if m.concurrency = "auto" then 0
      else (stoi m.concurrency).toOption.getD 0) = n ↔ stoi m.concurrency = .ok n) := by
    intro n hpos
    by_cases hc : m.concurrency = "auto"
    · rw [if_pos hc, hc, stoi_auto]
      simp only [reduceCtorEq, iff_false]
      omega
    · rw [if_neg hc]
      cases stoi m.concurrency with
      | error e =>
        simp only [Except.toOption, Option.getD_none, reduceCtorEq, iff_false]
        omega
      | ok n' => simp [Except.toOption]
  unfold validateStreams check
  generalize hn : (if m.concurrency = "auto" then 0
      else (stoi m.concurrency).toOption.getD 0 : Int) = n at hnumber
  simp only [bind_ok_iff, exists_const, require_ok_iff, decide_eq_true_eq, Bool.or_eq_true,
    Bool.and_eq_true, Bool.not_eq_true', bne_iff_ne, beq_iff_eq, Option.isNone_iff_eq_none,
    List.isEmpty_iff, UInt32.le_iff_toNat_le, UInt32.toNat_div, ne_zero_iff_toNat_pos,
    Proof.mod_eq_zero_iff]
  constructor
  · rintro ⟨hpos, h1, ⟨h2, h3⟩, h4, h5, h6, h7, h8, h9⟩
    have hs := (hnumber n hpos).mp rfl
    rw [Proof.toUInt32_pos hpos (Proof.stoi_lt hs)] at h1 h3 h4 h6
    refine ⟨n, hs, hpos, ⟨fun hw => ?_, h2, h3, h4, h5, h6, h7, h8, h9⟩⟩
    rcases h1 with h1 | h1
    · cases hw.symm.trans h1
    · exact h1
  · rintro ⟨n', hs, hpos, hfit⟩
    obtain rfl : n = n' := (hnumber n' hpos).mpr hs
    rw [Proof.toUInt32_pos hpos (Proof.stoi_lt hs)]
    refine ⟨hpos, ?_, ⟨hfit.positive, hfit.streams⟩, hfit.rate, hfit.inflight, hfit.active,
      hfit.noPlugin, hfit.noOutput, hfit.noWarmup⟩
    cases hw : m.websocket with
    | false => exact Or.inl rfl
    | true => exact Or.inr (hfit.connections hw)

/-! ## What a message says about streams -/

theorem h2_reading : (reading o).h2 = true ↔ o.protocol = some (.h2 true) := by
  unfold reading
  rcases o.protocol with _ | b | p <;> simp

/-- The pending requests a message is read as: its own number, or what its streams need. -/
theorem maxPendingRequests_reading (h : (reading o).streamModeEnabled = true) :
    (reading o).maxPendingRequests = o.maxPendingRequests.getD (reading o).streamsPerWorker := by
  have hneeded : neededPending o = if (reading o).streamModeEnabled
      && decide (0 < (reading o).streamsPerWorker) then (reading o).streamsPerWorker else 0 := rfl
  change o.maxPendingRequests.getD (neededPending o) = _
  rw [hneeded, h, Bool.true_and]
  split
  · rfl
  · rename_i hzero
    -- only zero is not above zero
    have hzero' : ¬ 0 < (reading o).streamsPerWorker := by simpa using hzero
    rw [UInt32.lt_iff_toNat_lt] at hzero'
    have h0 : (0 : UInt32).toNat = 0 := rfl
    have heq : (reading o).streamsPerWorker = 0 := UInt32.toNat.inj (by omega)
    rw [heq]

/-! ## The streams a worker opens at once -/

/-- The limits of a worker's pool hold all its streams, and the pool speaks their protocol. -/
structure HoldsStreams (m : Members) : Prop where
  numeric : ∃ n : Int, stoi m.concurrency = .ok n ∧ 0 < n
  pending : ∀ n : Int, stoi m.concurrency = .ok n →
    m.streams.toNat / n.toNat ≤ m.maxPendingRequests.toNat
  active : ∀ n : Int, stoi m.concurrency = .ok n →
    m.streams.toNat / n.toNat ≤ m.maxActiveRequests.toNat
  connections : m.websocket = true → ∀ n : Int, stoi m.concurrency = .ok n →
    m.streams.toNat / n.toNat ≤ m.connections.toNat
  websocketProtocol : m.websocket = true → m.httpProtocol = .http11
  grpcProtocol : m.grpcStreamEnabled = true → m.httpProtocol = .http2

/-- A number of pending requests that a message gives holds the streams of a worker. -/
def PendingHolds (o : CommandLineOptions) : Prop :=
  ∀ p, o.maxPendingRequests = some p → ∀ n : Int, stoi (o.concurrency.getD "1") = .ok n →
    (requestedStreams o).toNat / n.toNat ≤ p.toNat

/-- A WebSocket message does not ask for HTTP/2 by the deprecated field. -/
def PlainUpgrade (o : CommandLineOptions) : Prop :=
  o.websocket.isSome = true → o.protocol ≠ some (.h2 true)

variable {m o}

/-- A worker's streams are what `raisePendingRequestsForStreams` makes room for. -/
theorem streamsPerWorker_toNat {n : Int} (hs : stoi m.concurrency = .ok n) (hpos : 0 < n) :
    m.streams.toNat / n.toNat ≤ m.streamsPerWorker.toNat := by
  have hauto : m.concurrency ≠ "auto" := by
    intro h
    rw [h, stoi_auto] at hs
    cases hs
  unfold streamsPerWorker
  simp only [if_neg hauto, hs]
  have hdiv : (m.streams / toUInt32 (max 1 n)).toNat = m.streams.toNat / n.toNat := by
    rw [UInt32.toNat_div, max_eq_right (by omega), Proof.toUInt32_pos hpos (Proof.stoi_lt hs)]
  have hmax : ∀ a b : UInt32, b.toNat ≤ (max a b).toNat := by
    intro a b
    change b.toNat ≤ (if a ≤ b then b else a).toNat
    split
    · rfl
    · rename_i hle
      rw [UInt32.le_iff_toNat_le] at hle
      omega
  rw [← hdiv]
  exact hmax _ _

theorem httpProtocol_of_h2 (h : m.h2 = true) : m.httpProtocol = .http2 := by
  unfold httpProtocol
  rw [h]
  rfl

/-- Members of a checked gRPC message speak HTTP/2. -/
theorem httpProtocol_of_validateGrpc (h : m.validateGrpc = .ok ()) : m.httpProtocol = .http2 := by
  unfold validateGrpc check at h
  obtain ⟨_, hprotocol, -⟩ := bind_ok_iff.mp h
  rw [require_ok_iff] at hprotocol
  unfold httpProtocol
  rw [hprotocol]
  rfl

/-- Members of a checked WebSocket message speak HTTP/1.1, unless `h2` says otherwise. -/
theorem httpProtocol_of_validateWebsocket (h : m.validateWebsocket = .ok ())
    (hh2 : m.h2 = false) : m.httpProtocol = .http11 := by
  unfold validateWebsocket check at h
  obtain ⟨_, -, h⟩ := bind_ok_iff.mp h
  obtain ⟨_, hprotocol, -⟩ := bind_ok_iff.mp h
  rw [require_ok_iff, beq_iff_eq] at hprotocol
  unfold httpProtocol
  rw [hh2, hprotocol]
  rfl

end Members

open Members

/--
**The streams of an accepted message fit its worker's pool** exactly when the message gives no
smaller number of pending requests and does not ask for a WebSocket over HTTP/2.
-/
theorem holdsStreams_iff {env : Outside} {o : CommandLineOptions} {m : Members}
    (h : construct env o = .ok m) (hmode : m.streamModeEnabled = true) :
    HoldsStreams m ↔ PendingHolds o ∧ PlainUpgrade o := by
  obtain ⟨-, -, rfl, hvalid⟩ := construct_ok_iff.mp h
  obtain ⟨n, hs, hpos, hfit⟩ := (validateStreams_ok_iff _).mp (hvalid.streams hmode)
  have hpending := maxPendingRequests_reading o hmode
  have hworkers := streamsPerWorker_toNat hs hpos
  constructor
  · intro hholds
    constructor
    · intro p hp n' hs'
      have := hholds.pending n' hs'
      rw [hpending, hp] at this
      exact this
    · intro hws hh2
      have hhttp11 := hholds.websocketProtocol hws
      rw [httpProtocol_of_h2 ((h2_reading o).mpr hh2)] at hhttp11
      cases hhttp11
  · rintro ⟨hgiven, hplain⟩
    have honly : ∀ n' : Int, stoi (reading o).concurrency = .ok n' → n' = n := by
      intro n' hs'
      exact Except.ok.inj (hs'.symm.trans hs)
    refine ⟨⟨n, hs, hpos⟩, ?_, ?_, ?_, ?_, ?_⟩
    · intro n' hs'
      obtain rfl := honly n' hs'
      rw [hpending]
      cases hp : o.maxPendingRequests with
      | none => exact hworkers
      | some p => exact hgiven p hp n' hs
    · intro n' hs'
      obtain rfl := honly n' hs'
      exact hfit.active
    · intro hws n' hs'
      obtain rfl := honly n' hs'
      exact hfit.connections hws
    · intro hws
      refine httpProtocol_of_validateWebsocket (hvalid.websocket hws) ?_
      cases hh2 : (reading o).h2 with
      | false => rfl
      | true => exact absurd ((h2_reading o).mp hh2) (hplain hws)
    · intro hgrpc
      refine httpProtocol_of_validateGrpc (hvalid.grpc ?_)
      unfold grpcStreamEnabled at hgrpc
      unfold grpcEnabled
      rw [beq_iff_eq] at hgrpc
      rw [hgrpc]
      rfl

/-- A system without free ports, with URIs of the form `scheme://host/path`. -/
def Outside.plain : Outside where
  availablePort := fun _ _ => .error "no port"
  hostPath := fun uri => match Text.cut uri "://" with
    | none => ("", "")
    | some (_, rest) => match Text.cut rest "/" with
      | none => (rest, "/")
      | some (host, path) => (host, "/" ++ path)
  validate := fun _ => .ok ()

/-- Twenty WebSocket streams on one worker. -/
def twentySockets : CommandLineOptions :=
  { uri := some (.uri "http://127.0.0.1:80/"), websocket := some {} }

/-- Without a number of their own, the pending requests are the twenty streams. -/
theorem holdsStreams_twentySockets : ∃ m, construct Outside.plain twentySockets = .ok m
    ∧ m.maxPendingRequests = 20 ∧ HoldsStreams m := by
  obtain ⟨m, hm, hmode, hpending⟩ : ∃ m, construct Outside.plain twentySockets = .ok m
      ∧ m.streamModeEnabled = true ∧ m.maxPendingRequests = 20 := ⟨_, rfl, rfl, rfl⟩
  refine ⟨m, hm, hpending, (holdsStreams_iff hm hmode).mpr ⟨?_, ?_⟩⟩
  · intro p hp
    cases hp
  · intro _ hh2
    cases hh2

/-- One pending request for twenty streams, and an upgrade over HTTP/2, are both accepted. -/
theorem holdsStreams_not_checked :
    (∃ m, construct Outside.plain { twentySockets with maxPendingRequests := some 1 } = .ok m
      ∧ m.streamModeEnabled = true ∧ m.streams = 20 ∧ m.maxPendingRequests = 1 ∧ ¬ HoldsStreams m)
    ∧ ∃ m, construct Outside.plain { twentySockets with protocol := some (.h2 true) } = .ok m
      ∧ m.websocket = true ∧ m.httpProtocol = .http2 ∧ ¬ HoldsStreams m := by
  constructor
  · refine ⟨_, rfl, rfl, rfl, rfl, ?_⟩
    intro h
    have : 20 / 1 ≤ 1 := h.pending 1 rfl
    omega
  · refine ⟨_, rfl, rfl, rfl, ?_⟩
    intro h
    exact absurd (h.websocketProtocol rfl) nofun

/-! ## The load and the times -/

section Planned

open Plan Compile Proof

variable {F : Type} {go : Go F} {env : Outside} {o : CommandLineOptions} {m : Members}
variable {opts : List CommandLineOptions} {ms : List Members}

/-- Each request is taken, with its members. -/
def Taken (env : Outside) (opts : List CommandLineOptions) (ms : List Members) : Prop :=
  List.Forall₂ (fun o m => construct env o = .ok m) opts ms

end Planned

end Sortie.Engine.OptionsImpl
