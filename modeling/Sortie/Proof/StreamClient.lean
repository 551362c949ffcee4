import Sortie.Engine.StreamClient
import Sortie.Lib.Ledger
import Sortie.Proof.Callbacks

/-!
# The books of a streaming client

Two things are counted. A message is refused, or sent and then answered or lost, as a
ledger allows. And a stream that is being opened is resolved once, which counts down the
number `prepare` waits on.

Whatever a callback of Envoy does is composed from a few small pieces, also when it comes
from inside a call. `Moves` says what a piece may do to messages and streams, and `Safe`
that it keeps the invariant `Inv` of the openings as well.
-/

namespace Sortie.Engine.StreamClient

variable {τ ρ R : Type} {c c' c'' : StreamClient τ ρ} {i j : Nat}
variable {f : Stream τ ρ → Stream τ ρ} {k : Counter} {s : Stream τ ρ} {asked : Prop}

/-! ## Messages -/

theorem streams_updateStream_self (f : Stream τ ρ → Stream τ ρ) :
    (c.updateStream i f).streams i = f (c.streams i) := Function.update_self ..

theorem streams_updateStream_of_ne (f : Stream τ ρ → Stream τ ρ) (h : j ≠ i) :
    (c.updateStream i f).streams j = c.streams j := Function.update_of_ne h ..

/-- What holds of an updated stream and of all streams holds of the streams after an update. -/
theorem streams_updateStream {P : Nat → Stream τ ρ → Prop} (hf : P i (f (c.streams i)))
    (h : ∀ j, P j (c.streams j)) (j : Nat) : P j ((c.updateStream i f).streams j) := by
  by_cases hj : j = i
  · rw [hj, streams_updateStream_self]
    exact hf
  · rw [streams_updateStream_of_ne f hj]
    exact h j

theorem counters_inc_self (k : Counter) : (c.inc k).counters k = c.counters k + 1 := if_pos rfl

theorem counters_inc_of_ne {k' : Counter} (h : k' ≠ k) : (c.inc k).counters k' = c.counters k' :=
  if_neg h

/-- The callbacks of the messages that a stream has in flight. -/
def Stream.pending (s : Stream τ ρ) : Multiset Nat :=
  (s.inflight.map InflightMessage.completionCallback : List Nat)

/-- The messages of a client; `extra` of them were sent and are not counted yet. -/
def ledger (extra : Nat) (c : StreamClient τ ρ) : Ledger where
  offered := c.callbacks.calls
  refused := c.counters .streamDeferred + c.counters .streamUnavailable
  sent := c.counters .streamMessagesSent + extra
  received := c.counters .streamMessagesReceived
  lost := c.counters .streamInflightLost
  pending := ∑ i ∈ Finset.range c.config.streamCount.toNat, (c.streams i).pending
  posted := c.callbacks.due
  invoked := c.callbacks.done

/-- The counters of messages. -/
def Counter.isBooked : Counter → Bool
  | .streamMessagesSent | .streamMessagesReceived | .streamDeferred | .streamUnavailable
  | .streamInflightLost => true
  | _ => false

/-- What is left alone by a part of a call. -/
structure Frame (c c' : StreamClient τ ρ) : Prop where
  config : c'.config = c.config
  calls : c'.callbacks.calls = c.callbacks.calls
  prepared : c'.prepared = c.prepared
  finished : c'.finished = c.finished
  terminated : c'.terminated = c.terminated
  waitingFor : c'.waitingFor = c.waitingFor

/-- A piece of the client moves messages as a ledger allows, takes messages from streams only, and
begins to open none. -/
structure Carries (c c' : StreamClient τ ρ) : Prop extends Frame c c' where
  nextStream : c'.nextStream = c.nextStream
  ledger : ∀ extra, Ledger.Steps (c.ledger extra) (c'.ledger extra)
  inflight : ∀ i, (c'.streams i).inflight.Sublist (c.streams i).inflight
  opening : ∀ i, (c'.streams i).state = .opening → (c.streams i).state = .opening
  attached : ∀ i, (c.streams i).attached = true → (c'.streams i).attached = true

/-- It also keeps hold of the handles of streams the pool is asked for, and leaves a closed stream
closed. -/
structure Moves (c c' : StreamClient τ ρ) : Prop extends Carries c c' where
  handles : ∀ i, ((c.streams i).pooled = true → (c.streams i).cancellable = true) →
    (c'.streams i).pooled = true → (c'.streams i).cancellable = true
  closed : ∀ i, (c.streams i).state = .closed → (c'.streams i).state = .closed

theorem Carries.trans (h : Carries c c') (h' : Carries c' c'') : Carries c c'' where
  config := h'.config.trans h.config
  calls := h'.calls.trans h.calls
  prepared := h'.prepared.trans h.prepared
  finished := h'.finished.trans h.finished
  terminated := h'.terminated.trans h.terminated
  waitingFor := h'.waitingFor.trans h.waitingFor
  nextStream := h'.nextStream.trans h.nextStream
  ledger := fun extra => (h.ledger extra).trans (h'.ledger extra)
  inflight := fun i => (h'.inflight i).trans (h.inflight i)
  opening := fun i hi => h.opening i (h'.opening i hi)
  attached := fun i hi => h'.attached i (h.attached i hi)

theorem Moves.refl (c : StreamClient τ ρ) : Moves c c where
  toFrame := ⟨rfl, rfl, rfl, rfl, rfl, rfl⟩
  nextStream := rfl
  ledger := fun _ => Ledger.Steps.refl _
  inflight := fun _ => List.Sublist.refl _
  opening := fun _ h => h
  attached := fun _ h => h
  handles := fun _ h => h
  closed := fun _ h => h

theorem Moves.trans (h : Moves c c') (h' : Moves c' c'') : Moves c c'' where
  toCarries := h.toCarries.trans h'.toCarries
  handles := fun i hi => h'.handles i (h.handles i hi)
  closed := fun i hi => h'.closed i (h.closed i hi)

/-- A counter of another kind stays as it is. -/
theorem counters_inc_of_kind {p : Counter → Bool} (hk : p k = false) (k' : Counter)
    (hk' : p k' = true) : (c.inc k).counters k' = c.counters k' := by
  refine counters_inc_of_ne fun h => ?_
  rw [h, hk] at hk'
  cases hk'

theorem moves_inc (hk : k.isBooked = false) : Moves c (c.inc k) := by
  refine { Moves.refl c with ledger := fun extra => Ledger.Steps.of_eq ?_ }
  have hcounter := counters_inc_of_kind (c := c) hk
  unfold StreamClient.ledger
  rw [hcounter _ rfl, hcounter _ rfl, hcounter _ rfl, hcounter _ rfl, hcounter _ rfl]
  rfl

section

variable (hinflight : ∀ s, (f s).inflight = s.inflight)
include hinflight

theorem ledger_updateStream (extra : Nat) :
    (c.updateStream i f).ledger extra = c.ledger extra := by
  have hpending : ∀ j, ((c.updateStream i f).streams j).pending = (c.streams j).pending :=
    streams_updateStream (P := fun j s => s.pending = (c.streams j).pending)
      (by unfold Stream.pending; rw [hinflight]) (fun _ => rfl)
  unfold StreamClient.ledger
  simp only [hpending]
  rfl

section

variable (hopening : (f (c.streams i)).state = .opening → (c.streams i).state = .opening)
  (hattached : (c.streams i).attached = true → (f (c.streams i)).attached = true)
include hopening hattached

/-- A stream is changed, but not its messages. -/
theorem carries_updateStream : Carries c (c.updateStream i f) :=
  { Moves.refl c with
    ledger := fun extra => Ledger.Steps.of_eq (ledger_updateStream hinflight extra)
    inflight := streams_updateStream (P := fun j s => s.inflight.Sublist (c.streams j).inflight)
      (by rw [hinflight]) (fun _ => List.Sublist.refl _)
    opening := streams_updateStream
      (P := fun j s => s.state = .opening → (c.streams j).state = .opening) hopening (fun _ h => h)
    attached := streams_updateStream
      (P := fun j s => (c.streams j).attached = true → s.attached = true) hattached (fun _ h => h) }

theorem moves_updateStream
    (hhandle : ((c.streams i).pooled = true → (c.streams i).cancellable = true) →
      (f (c.streams i)).pooled = true → (f (c.streams i)).cancellable = true)
    (hclosed : (c.streams i).state = .closed → (f (c.streams i)).state = .closed) :
    Moves c (c.updateStream i f) where
  toCarries := carries_updateStream hinflight hopening hattached
  handles := streams_updateStream
    (P := fun j s => ((c.streams j).pooled = true → (c.streams j).cancellable = true) →
      s.pooled = true → s.cancellable = true) hhandle (fun _ h => h)
  closed := streams_updateStream
    (P := fun j s => (c.streams j).state = .closed → s.state = .closed) hclosed (fun _ h => h)

end

/-- Of a stream only what Envoy does not ask about is changed. -/
theorem moves_touch (hstate : ∀ s, (f s).state = s.state)
    (hattached : ∀ s, (f s).attached = s.attached) (hpooled : ∀ s, (f s).pooled = s.pooled)
    (hcancellable : ∀ s, (f s).cancellable = s.cancellable) : Moves c (c.updateStream i f) := by
  refine moves_updateStream hinflight ?_ ?_ ?_ ?_
  · rw [hstate]
    exact fun h => h
  · rw [hattached]
    exact fun h => h
  · rw [hpooled, hcancellable]
    exact fun h => h
  · rw [hstate]
    exact fun h => h

end

theorem moves_openResolved : Moves c c.openResolved := { Moves.refl c with }

theorem moves_maybeExitWaitLoop : Moves c c.maybeExitWaitLoop := by
  unfold maybeExitWaitLoop
  split
  · split
    · exact { Moves.refl c with }
    · exact Moves.refl c
  · split
    · exact { Moves.refl c with }
    · exact Moves.refl c
  · exact Moves.refl c

theorem moves_addLatency (latency : Nat) : Moves c (c.addLatency latency) := by
  unfold addLatency
  split
  · exact { Moves.refl c with }
  · exact Moves.refl c

section

variable {message : InflightMessage τ} {rest : List (InflightMessage τ)} {success : Bool}

theorem streams_complete : (c.complete i message rest success).streams
      = Function.update c.streams i { c.streams i with inflight := rest } := rfl

/-- Letting go of a message, under the counter for what became of it. -/
theorem moves_complete (hsub : rest.Sublist (c.streams i).inflight)
    (hledger : ∀ extra,
      Ledger.Step (c.ledger extra) (((c.inc k).complete i message rest success).ledger extra)) :
    Moves c ((c.inc k).complete i message rest success) := by
  -- but for its messages the stream stays as it is
  have hsame : ∀ j, ((c.inc k).complete i message rest success).streams j
      = { c.streams j with
          inflight := (((c.inc k).complete i message rest success).streams j).inflight } :=
    streams_updateStream (f := fun s => { s with inflight := rest })
      (P := fun j s => s = { c.streams j with inflight := s.inflight }) rfl (fun _ => rfl)
  refine { Moves.refl c with
    ledger := fun extra => Ledger.Steps.single (hledger extra)
    inflight := streams_updateStream (f := fun s => { s with inflight := rest })
      (P := fun j s => s.inflight.Sublist (c.streams j).inflight) hsub
      (fun _ => List.Sublist.refl _)
    opening := ?_, attached := ?_, handles := ?_, closed := ?_ }
  all_goals
    intro j
    rw [hsame j]
    exact fun h => h

end

section Complete

variable {message : InflightMessage τ} {rest : List (InflightMessage τ)}
  (hi : i < c.config.streamCount.toNat) (hperm : (c.streams i).inflight.Perm (message :: rest))

include hi hperm

/-- The message is one of the pending ones, and it goes. -/
theorem pending_complete (success : Bool) :
    ∑ j ∈ Finset.range c.config.streamCount.toNat, (c.streams j).pending
      = message.completionCallback ::ₘ
        ∑ j ∈ Finset.range c.config.streamCount.toNat,
          ((c.complete i message rest success).streams j).pending := by
  have hsum := Ledger.sum_update_add Stream.pending c.streams
    { c.streams i with inflight := rest } hi
  have hhere : (c.streams i).pending
      = message.completionCallback ::ₘ Stream.pending { c.streams i with inflight := rest } := by
    unfold Stream.pending
    rw [Multiset.cons_coe, Multiset.coe_eq_coe]
    exact hperm.map _
  rw [hhere, Multiset.add_cons, ← Multiset.cons_add] at hsum
  exact (add_right_cancel hsum).symm

theorem moves_lose (hsub : rest.Sublist (c.streams i).inflight) :
    Moves c ((c.inc .streamInflightLost).complete i message rest false) := by
  refine moves_complete hsub fun extra => ?_
  refine (Ledger.Step.lose (l := c.ledger extra) (pending_complete hi hperm false)).congr ?_
  exact Ledger.ext rfl rfl rfl rfl rfl rfl rfl rfl (Callbacks.done_invoke _ _ _ _).symm

theorem moves_receive (hsub : rest.Sublist (c.streams i).inflight) (now : Nat) :
    Moves c (c.receive i message rest now) := by
  refine Moves.trans (moves_complete hsub fun extra => ?_) (moves_addLatency _)
  refine (Ledger.Step.receive (l := c.ledger extra) (pending_complete hi hperm true)).congr ?_
  exact Ledger.ext rfl rfl rfl rfl rfl rfl rfl rfl (Callbacks.done_invoke _ _ _ _).symm

end Complete

/-- Losing everything a stream has in flight changes the stream, the callbacks and one counter. -/
theorem completeMessages_spec {l : List (InflightMessage τ)} (hi : i < c.config.streamCount.toNat)
    (hl : (c.streams i).inflight = l) :
    Moves c (completeMessages i false l c) ∧ ∃ counters callbacks,
      completeMessages i false l c = { c with
        streams := Function.update c.streams i { c.streams i with inflight := [] }
        counters := counters
        callbacks := callbacks }
      ∧ ∀ k ≠ Counter.streamInflightLost, counters k = c.counters k := by
  induction l generalizing c with
  | nil =>
    refine ⟨Moves.refl c, c.counters, c.callbacks, ?_, fun _ _ => rfl⟩
    have hsame : { c.streams i with inflight := [] } = c.streams i := by rw [← hl]
    rw [hsame, Function.update_eq_self]
    rfl
  | cons message rest ih =>
    have hlose : Moves c ((c.inc .streamInflightLost).complete i message rest false) :=
      moves_lose hi (by rw [hl]) (by rw [hl]; exact List.sublist_cons_self message rest)
    have hstream : ((c.inc .streamInflightLost).complete i message rest false).streams i
        = { c.streams i with inflight := rest } := by
      rw [streams_complete, Function.update_self]
      rfl
    have hrest := congrArg Stream.inflight hstream
    obtain ⟨hmoves, counters, callbacks, heq, hcounters⟩ :=
      ih (c := (c.inc .streamInflightLost).complete i message rest false) hi hrest
    refine ⟨hlose.trans hmoves, counters, callbacks, heq.trans ?_, fun k hk => ?_⟩
    · rw [hstream]
      congr 1
      exact Function.update_idem _ _ _
    · rw [hcounters k hk]
      exact if_neg hk

theorem completeInflight_spec (hi : i < c.config.streamCount.toNat) :
    Moves c (c.completeInflight i false) ∧ ∃ counters callbacks,
      c.completeInflight i false = { c with
        streams := Function.update c.streams i { c.streams i with inflight := [] }
        counters := counters
        callbacks := callbacks }
      ∧ ∀ k ≠ Counter.streamInflightLost, counters k = c.counters k :=
  completeMessages_spec hi rfl

/-! ## Openings -/

/-- What is known of a stream, with whether `openStream` was called for it. `heard` says when a
stream that Envoy gave, and that has had headers or not, is past opening. -/
structure Good (heard : Bool → Bool → Bool) (s : Stream τ ρ) (asked : Prop) : Prop where
  pooled : s.pooled = true → s.state = .opening ∧ s.encoder = false ∧ s.attached = false
  known : s.pooled = true ∨ s.attached = true → asked
  fresh : ¬ asked → s.state = .opening ∧ s.encoder = false
  late : s.answered = true → s.attached = true
  past : heard s.attached s.answered = true → s.state ≠ .opening
  /-- a stream that opens has been asked for, or waits for its response -/
  live : s.state = .opening → asked →
    s.pooled = true ∨ s.attached = true ∧ heard s.attached s.answered = false
  /-- messages are in flight on streams only that can be answered -/
  quiet : s.state = .opening ∨ s.state = .closed → s.inflight = []
  /-- nothing is sent without an encoder -/
  encoder : s.state = .opened → s.encoder = true
  /-- nor is a response awaited without one -/
  held : s.state = .opening → s.attached = true → s.encoder = true

/-- The streams `openStream` was called for that are neither open nor closed yet. -/
def awaited (c : StreamClient τ ρ) : Finset Nat :=
  (Finset.range c.opens).filter fun i => (c.streams i).state = .opening

/-- The streams that were opened, or are known not to be. -/
def settled (c : StreamClient τ ρ) : Nat :=
  c.counters .streamsOpened + c.counters .streamOpenFailures + c.counters .streamUpgradeRejected

/-- The counters of openings. -/
def Counter.isOpening : Counter → Bool
  | .streamsOpened | .streamOpenFailures | .streamUpgradeRejected => true
  | _ => false

/-- The openings are counted right. -/
structure Inv (heard : Bool → Bool → Bool) (c : StreamClient τ ρ) : Prop where
  good : ∀ i, Good heard (c.streams i) (i < c.opens)
  pending : c.pendingOpens = c.awaited.card
  noUnderflow : c.underflowed = false
  settled : c.settled + c.cancelled + c.awaited.card = c.opens
  /-- the wait is not over before it should be -/
  patient : c.waitingFor = .opens → c.exited = true → c.waitTimer = false ∨ c.awaited = ∅

/-- The wait is over when nothing is left to wait for. -/
def Woken (c : StreamClient τ ρ) : Prop :=
  c.waitingFor = .opens → c.pendingOpens = 0 → c.exited = true

variable {heard : Bool → Bool → Bool}

theorem settled_congr (h : ∀ k : Counter, k.isOpening = true → c'.counters k = c.counters k) :
    c'.settled = c.settled := by
  unfold settled
  rw [h _ rfl, h _ rfl, h _ rfl]

theorem settled_inc (hk : k.isOpening = false) : (c.inc k).settled = c.settled :=
  settled_congr (counters_inc_of_kind hk)

theorem settled_inc_opening (hk : k.isOpening = true) : (c.inc k).settled = c.settled + 1 := by
  have hk : k = .streamsOpened ∨ k = .streamOpenFailures ∨ k = .streamUpgradeRejected := by
    cases k <;> simp_all [Counter.isOpening]
  unfold settled
  rcases hk with rfl | rfl | rfl
  all_goals
    rw [counters_inc_self, counters_inc_of_ne (by simp), counters_inc_of_ne (by simp)]
    omega

theorem Inv.inc (h : Inv heard c) (hk : k.isOpening = false) : Inv heard (c.inc k) :=
  { h with
    settled := by
      rw [settled_inc hk]
      exact h.settled }

/-- A stream is changed, but not whether it is being opened. -/
theorem Inv.updateStream (h : Inv heard c) (hgood : Good heard (f (c.streams i)) (i < c.opens))
    (hopening : (f (c.streams i)).state = .opening ↔ (c.streams i).state = .opening) :
    Inv heard (c.updateStream i f) := by
  have hawaited : (c.updateStream i f).awaited = c.awaited :=
    Finset.filter_congr fun j _ => streams_updateStream
      (P := fun j s => s.state = .opening ↔ (c.streams j).state = .opening) hopening
      (fun _ => Iff.rfl) j
  exact {
    good := streams_updateStream (P := fun j s => Good heard s (j < c.opens)) hgood h.good
    pending := h.pending.trans (by rw [hawaited])
    noUnderflow := h.noUnderflow
    settled := by
      rw [hawaited]
      exact h.settled
    patient := by
      rw [hawaited]
      exact h.patient }

/-- A stream is resolved: it is not being opened any more, and is counted down. -/
theorem Inv.resolve (h : Inv heard c) (hi : i < c.opens) (hopening : (c.streams i).state = .opening)
    (hgood : Good heard s (i < c.opens)) (hleft : s.state ≠ .opening)
    (hstreams : c'.streams = Function.update c.streams i s) (hopens : c'.opens = c.opens)
    (hpending : c'.pendingOpens = c.pendingOpens - 1)
    (hunderflowed : c'.underflowed = (c.underflowed || c.pendingOpens == 0))
    (hsettled : c'.settled + c'.cancelled = c.settled + c.cancelled + 1)
    (hwaiting : c'.waitingFor = c.waitingFor) (hexited : c'.exited = c.exited)
    (htimer : c'.waitTimer = c.waitTimer) : Inv heard c' := by
  have hmem : i ∈ c.awaited := Finset.mem_filter.mpr ⟨Finset.mem_range.mpr hi, hopening⟩
  have hawaited : c'.awaited = c.awaited.erase i := by
    ext j
    unfold awaited
    rw [hopens, hstreams, Finset.mem_filter, Finset.mem_erase, Finset.mem_filter]
    by_cases hj : j = i
    · rw [hj, Function.update_self]
      exact ⟨fun h => absurd h.2 hleft, fun h => absurd rfl h.1⟩
    · rw [Function.update_of_ne hj]
      exact ⟨fun h => ⟨hj, h⟩, fun h => h.2⟩
  have hcard :
      c'.awaited.card = c.awaited.card - 1 := by rw [hawaited, Finset.card_erase_of_mem hmem]
  have hpos : 0 < c.awaited.card := Finset.card_pos.mpr ⟨i, hmem⟩
  have hcount := h.pending
  constructor
  case good =>
    intro j
    rw [hstreams, hopens]
    by_cases hj : j = i
    · rw [hj, Function.update_self]
      exact hgood
    · rw [Function.update_of_ne hj]
      exact h.good j
  case pending => omega
  case noUnderflow =>
    rw [hunderflowed, h.noUnderflow, Bool.false_or, beq_eq_false_iff_ne]
    omega
  case settled =>
    have := h.settled
    omega
  case patient =>
    rw [hwaiting, hexited, htimer]
    intro hw hx
    rcases h.patient hw hx with ht | hempty
    · exact .inl ht
    · rw [hempty] at hmem
      exact absurd hmem (Finset.notMem_empty i)

theorem Inv.maybeExitWaitLoop (h : Inv heard c) : Inv heard c.maybeExitWaitLoop := by
  unfold StreamClient.maybeExitWaitLoop
  split
  · split
    next hzero =>
      refine { h with patient := fun _ _ => .inr ?_ }
      exact Finset.card_eq_zero.mp (h.pending.symm.trans hzero)
    next => exact h
  next hw =>
    split
    · exact { h with patient := fun hn => nomatch hw.symm.trans hn }
    · exact h
  · exact h

theorem woken_maybeExitWaitLoop : Woken c.maybeExitWaitLoop := by
  unfold StreamClient.maybeExitWaitLoop
  split
  next hw =>
    split
    · exact fun _ _ => rfl
    next hne => exact fun _ hzero => absurd hzero hne
  next hw =>
    split
    · exact fun hn => nomatch hw.symm.trans hn
    · exact fun hn => nomatch hw.symm.trans hn
  next hw => exact fun hn => nomatch hw.symm.trans hn

/-- What the invariant is about is the same. -/
theorem Inv.congr (h : Inv heard c) (hstreams : c'.streams = c.streams)
    (hopens : c'.opens = c.opens)
    (hpending : c'.pendingOpens = c.pendingOpens) (hunderflowed : c'.underflowed = c.underflowed)
    (hsettled : c'.settled = c.settled) (hcancelled : c'.cancelled = c.cancelled)
    (hwaiting : c'.waitingFor = c.waitingFor) (hexited : c'.exited = c.exited)
    (htimer : c'.waitTimer = c.waitTimer) : Inv heard c' := by
  have hawaited : c'.awaited = c.awaited := by
    unfold awaited
    rw [hstreams, hopens]
  constructor
  · rw [hstreams, hopens]
    exact h.good
  · rw [hpending, hawaited]
    exact h.pending
  · rw [hunderflowed]
    exact h.noUnderflow
  · rw [hsettled, hcancelled, hawaited, hopens]
    exact h.settled
  · rw [hwaiting, hexited, htimer, hawaited]
    exact h.patient

/-! ## Callbacks of Envoy -/

/-- A piece of the client that moves messages as it should also keeps the invariant of the openings,
and wakes the wait. -/
structure Safe (heard : Bool → Bool → Bool) (c c' : StreamClient τ ρ) : Prop where
  moves : Moves c c'
  opens : c'.opens = c.opens
  cancelled : c'.cancelled = c.cancelled
  inv : Inv heard c → Inv heard c'
  woken : Woken c → Woken c'

theorem Safe.refl (c : StreamClient τ ρ) : Safe heard c c :=
  ⟨Moves.refl c, rfl, rfl, fun h => h, fun h => h⟩

theorem Safe.trans (h : Safe heard c c') (h' : Safe heard c' c'') : Safe heard c c'' where
  moves := h.moves.trans h'.moves
  opens := h'.opens.trans h.opens
  cancelled := h'.cancelled.trans h.cancelled
  inv := fun hi => h'.inv (h.inv hi)
  woken := fun hw => h'.woken (h.woken hw)

theorem Safe.index (h : Safe heard c c') (hi : i < c.config.streamCount.toNat) :
    i < c'.config.streamCount.toNat := by
  rw [h.moves.config]
  exact hi

theorem Safe.past (h : Safe heard c c') (hs : (c.streams i).state ≠ .opening) :
    (c'.streams i).state ≠ .opening :=
  fun hn => hs (h.moves.opening i hn)

theorem safe_inc (hbooked : k.isBooked = false) (hopening : k.isOpening = false) :
    Safe heard c (c.inc k) :=
  ⟨moves_inc hbooked, rfl, rfl, fun h => h.inc hopening, fun h => h⟩

theorem safe_addLatency (latency : Nat) : Safe heard c (c.addLatency latency) := by
  have hmoves := moves_addLatency (c := c) latency
  unfold addLatency at hmoves ⊢
  split
  next hmeasure =>
    rw [if_pos hmeasure] at hmoves
    exact ⟨hmoves, rfl, rfl, fun h => { h with }, fun h => h⟩
  next => exact Safe.refl c

/-- Of a stream only its bytes and whether writes are blocked are changed. -/
theorem safe_touch
    (hf : ∀ s, f s = { s with wire := (f s).wire, writeBlocked := (f s).writeBlocked }) :
    Safe heard c (c.updateStream i f) where
  moves := moves_touch (fun s => by rw [hf]) (fun s => by rw [hf]) (fun s => by rw [hf])
    (fun s => by rw [hf]) (fun s => by rw [hf])
  opens := rfl
  cancelled := rfl
  inv := fun h => by
    refine h.updateStream ?_ (by rw [hf])
    rw [hf]
    exact { h.good i with }
  woken := fun h => h

theorem frame_maybeExitWaitLoop : c.maybeExitWaitLoop.opens = c.opens
    ∧ c.maybeExitWaitLoop.cancelled = c.cancelled ∧ c.maybeExitWaitLoop.streams = c.streams := by
  unfold StreamClient.maybeExitWaitLoop
  split
  · split <;> exact ⟨rfl, rfl, rfl⟩
  · split <;> exact ⟨rfl, rfl, rfl⟩
  · exact ⟨rfl, rfl, rfl⟩

/-- A piece that ends with a look at the wait. -/
theorem safe_maybeExitWaitLoop {d : StreamClient τ ρ} (hmoves : Moves c d)
    (hopens : d.opens = c.opens) (hcancelled : d.cancelled = c.cancelled)
    (hinv : Inv heard c → Inv heard d) : Safe heard c d.maybeExitWaitLoop := by
  obtain ⟨ho, hc, -⟩ := frame_maybeExitWaitLoop (c := d)
  exact ⟨hmoves.trans moves_maybeExitWaitLoop, ho.trans hopens, hc.trans hcancelled,
    fun h => (hinv h).maybeExitWaitLoop, fun _ => woken_maybeExitWaitLoop⟩

theorem safe_receive {message : InflightMessage τ} {rest : List (InflightMessage τ)}
    (hi : i < c.config.streamCount.toNat) (hperm : (c.streams i).inflight.Perm (message :: rest))
    (hsub : rest.Sublist (c.streams i).inflight) (now : Nat) :
    Safe heard c (c.receive i message rest now) := by
  have hlatency : Safe heard ((c.inc .streamMessagesReceived).complete i message rest true)
      (c.receive i message rest now) := safe_addLatency (now - message.sentAt)
  refine ⟨moves_receive hi hperm hsub now, hlatency.opens, hlatency.cancelled,
    fun h => hlatency.inv ?_, hlatency.woken⟩
  refine Inv.congr ((h.inc (k := .streamMessagesReceived) rfl).updateStream (i := i)
    (f := fun s => { s with inflight := rest }) ?_ Iff.rfl) rfl rfl rfl rfl rfl rfl rfl rfl rfl
  refine { h.good i with quiet := fun hs => ?_ }
  rw [(h.good i).quiet hs] at hsub
  exact List.sublist_nil.mp hsub

theorem isOpening_ne_lost (hk : k.isOpening = true) : k ≠ .streamInflightLost := by
  rintro rfl
  cases hk

theorem safe_completeInflight (hi : i < c.config.streamCount.toNat) :
    Safe heard c (c.completeInflight i false) := by
  obtain ⟨hmoves, counters, callbacks, heq, hcounters⟩ := completeInflight_spec hi
  rw [heq] at hmoves ⊢
  refine ⟨hmoves, rfl, rfl, fun h => ?_, fun h => h⟩
  refine Inv.congr (h.updateStream (i := i) (f := fun s => { s with inflight := [] })
    { h.good i with quiet := fun _ => rfl } Iff.rfl) rfl rfl rfl rfl ?_ rfl rfl rfl rfl
  exact settled_congr fun k hk => hcounters k (isOpening_ne_lost hk)

/-- A closed stream. -/
def Stream.shut (s : Stream τ ρ) : Stream τ ρ :=
  { s with state := .closed, encoder := false, inflight := [] }

/-- What `closeStream` changes: the stream, the callbacks, counters, and perhaps the wait. -/
theorem closeStream_spec (hi : i < c.config.streamCount.toNat) (hn : (c.streams i).state ≠ .closed)
    (status : Option (Option Nat)) :
    ∃ counters callbacks, Moves c { c with
        streams := Function.update c.streams i (c.streams i).shut
        counters := counters
        callbacks := callbacks }
      ∧ c.closeStream i status = { c with
          streams := Function.update c.streams i (c.streams i).shut
          counters := counters
          callbacks := callbacks }.maybeExitWaitLoop
      ∧ ∀ k : Counter, k.isOpening = true → counters k = c.counters k := by
  unfold closeStream
  rw [if_neg hn]
  dsimp only
  -- the stream is closed, and its status counted
  have hclose :
      Moves c (c.updateStream i (fun s => { s with state := .closed, encoder := false })) :=
    moves_updateStream (fun _ => rfl) nofun (fun h => h) (fun h => h) (fun _ => rfl)
  have hstatus : ∃ counters, ∀ d : StreamClient τ ρ, d.counters = c.counters →
      status.elim d (fun s => d.inc (.streamGrpcStatus s)) = { d with counters := counters }
        ∧ Moves d { d with counters := counters }
        ∧ ∀ k : Counter, k.isOpening = true → counters k = c.counters k := by
    cases status with
    | none =>
      refine ⟨c.counters, fun d hd => ?_⟩
      rw [← hd]
      exact ⟨rfl, Moves.refl d, fun _ _ => rfl⟩
    | some s =>
      refine ⟨(c.inc (.streamGrpcStatus s)).counters, fun d hd => ?_⟩
      have hinc : d.inc (.streamGrpcStatus s)
          = { d with counters := (c.inc (.streamGrpcStatus s)).counters } := by
        unfold inc
        rw [hd]
      exact ⟨hinc, hinc ▸ moves_inc rfl, counters_inc_of_kind rfl⟩
  obtain ⟨counted, hcounted⟩ := hstatus
  obtain ⟨heq, hmoves, hkept⟩ := hcounted
    (c.updateStream i (fun s => { s with state := .closed, encoder := false })) rfl
  rw [heq]
  -- then what it has in flight is lost
  obtain ⟨hlose, counters, callbacks, hlost, hcounters⟩ := completeInflight_spec (c := {
    c.updateStream i (fun s => { s with state := .closed, encoder := false }) with
      counters := counted }) (i := i) hi
  have hrecord : completeInflight { c.updateStream i (fun s => { s with
        state := .closed, encoder := false }) with counters := counted } i false
      = { c with
          streams := Function.update c.streams i (c.streams i).shut
          counters := counters
          callbacks := callbacks } := by
    rw [hlost]
    show StreamClient.mk .. = StreamClient.mk ..
    congr 1
    show Function.update (Function.update c.streams i _) i _ = _
    rw [Function.update_idem]
    congr 1
    simp only [streams_updateStream_self, Stream.shut]
  rw [hrecord] at hlose ⊢
  exact ⟨counters, callbacks, (hclose.trans hmoves).trans hlose, rfl,
    fun k hk => (hcounters k (isOpening_ne_lost hk)).trans (hkept k hk)⟩

/-- A stream that is not being opened any more. -/
theorem Good.of_past (hasked : asked) (hpast : s.state ≠ .opening) (hp : s.pooled = false)
    (hlate : s.answered = true → s.attached = true) (hquiet : s.state = .closed → s.inflight = [])
    (hencoder : s.state = .opened → s.encoder = true) : Good heard s asked where
  pooled := fun hpooled => nomatch hp.symm.trans hpooled
  known := fun _ => hasked
  fresh := fun hn => absurd hasked hn
  late := hlate
  past := fun _ => hpast
  live := fun hs => absurd hs hpast
  quiet := fun hs => hquiet (hs.resolve_left hpast)
  encoder := hencoder
  held := fun hs => absurd hs hpast

theorem Good.shut (h : Good heard s asked) (hasked : asked) (hp : s.pooled = false) :
    Good heard s.shut asked :=
  .of_past hasked nofun hp h.late (fun _ => rfl) nofun

theorem Good.pooled_eq_false (h : Good heard s asked)
    (hs : s.state ≠ .opening ∨ s.attached = true) : s.pooled = false := by
  refine eq_false_of_ne_true fun hp => ?_
  obtain ⟨hstate, -, hattached⟩ := h.pooled hp
  rcases hs with hs | hs
  · exact hs hstate
  · rw [hattached] at hs
    cases hs

theorem Good.asked_of_state (h : Good heard s asked) (hs : s.state ≠ .opening) : asked := by
  by_contra hn
  exact hs (h.fresh hn).1

/-- Closing a stream that is not being opened. -/
theorem safe_closeStream (hi : i < c.config.streamCount.toNat) (hs : (c.streams i).state ≠ .opening)
    (status : Option (Option Nat)) : Safe heard c (c.closeStream i status) := by
  by_cases hclosed : (c.streams i).state = .closed
  · unfold closeStream
    rw [if_pos hclosed]
    exact Safe.refl c
  · obtain ⟨counters, callbacks, hmoves, heq, hcounters⟩ := closeStream_spec hi hclosed status
    rw [heq]
    refine safe_maybeExitWaitLoop hmoves rfl rfl fun h => ?_
    have hpooled := (h.good i).pooled_eq_false (.inl hs)
    have hasked := (h.good i).asked_of_state hs
    refine Inv.congr (h.updateStream (f := Stream.shut) ((h.good i).shut hasked hpooled) ?_)
      rfl rfl rfl rfl (settled_congr hcounters) rfl rfl rfl rfl
    exact ⟨fun h => (by cases h), fun h => absurd h hs⟩

theorem isBooked_of_isOpening (hk : k.isOpening = true) : k.isBooked = false := by
  cases k <;> first | rfl | cases hk

/-- Closing a stream that is being opened, which is counted. -/
theorem safe_closeOpening (hk : k.isOpening = true) (hi : i < c.config.streamCount.toNat)
    (hs : (c.streams i).state = .opening)
    (hknown : Inv heard c → i < c.opens ∧ (c.streams i).pooled = false)
    (status : Option (Option Nat)) :
    Safe heard c ((c.inc k).openResolved.closeStream i status) := by
  obtain ⟨counters, callbacks, hmoves, heq, hcounters⟩ :=
    closeStream_spec (c := (c.inc k).openResolved) (i := i) hi (fun h => by
      rw [show ((c.inc k).openResolved.streams i).state = .opening from hs] at h
      cases h) status
  rw [heq]
  have hcounted : Moves c (c.inc k).openResolved :=
    (moves_inc (isBooked_of_isOpening hk)).trans moves_openResolved
  refine safe_maybeExitWaitLoop (hcounted.trans hmoves) rfl rfl fun h => ?_
  obtain ⟨hasked, hpooled⟩ := hknown h
  refine h.resolve hasked hs ((h.good i).shut hasked hpooled) nofun rfl rfl rfl
    rfl ?_ rfl rfl rfl
  have hsettled := settled_inc_opening (c := c) hk
  rw [settled_congr (c := (c.inc k).openResolved) hcounters]
  show (c.inc k).settled + c.cancelled = _
  omega

/-- A stream that the pool will not give. -/
def Stream.forgotten (s : Stream τ ρ) : Stream τ ρ :=
  { s with cancellable := false, pooled := false, state := .closed }

theorem moves_forgotten : Moves c (c.updateStream i Stream.forgotten) :=
  moves_updateStream (fun _ => rfl) nofun (fun h => h) nofun (fun _ => rfl)

theorem Good.forgotten (h : Good heard s asked) (hp : s.pooled = true) :
    Good heard s.forgotten asked :=
  .of_past (h.known (.inl hp)) nofun rfl h.late (fun _ => h.quiet (.inl (h.pooled hp).1)) nofun

theorem safe_onStreamOpenFailure (hp : (c.streams i).pooled = true) :
    Safe heard c (c.onStreamOpenFailure i) := by
  unfold onStreamOpenFailure
  refine safe_maybeExitWaitLoop ((moves_forgotten.trans (moves_inc rfl)).trans moves_openResolved)
    rfl rfl fun h => ?_
  have hgood := h.good i
  obtain ⟨hopening, -, -⟩ := hgood.pooled hp
  refine h.resolve (s := (c.streams i).forgotten) (hgood.known (.inl hp)) hopening
    (hgood.forgotten hp) nofun rfl rfl rfl rfl ?_ rfl rfl rfl
  show (c.inc .streamOpenFailures).settled + c.cancelled = _
  rw [settled_inc_opening rfl]
  omega

theorem safe_onStreamReset (hi : i < c.config.streamCount.toNat)
    (ha : (c.streams i).attached = true) (status : Option (Option Nat)) :
    Safe heard c (c.onStreamReset i status) := by
  unfold onStreamReset
  split
  · exact Safe.refl c
  · dsimp only
    refine (safe_inc (k := .streamResets) rfl rfl).trans ?_
    split
    next hs =>
      refine safe_closeOpening (c := c.inc .streamResets) (k := .streamOpenFailures) rfl hi hs
        (fun h => ?_) status
      exact ⟨(h.good i).known (.inr ha), (h.good i).pooled_eq_false (.inr ha)⟩
    next hs => exact safe_closeStream (c := c.inc .streamResets) hi hs status

theorem safe_onWriteBlocked (blocked : Bool) : Safe heard c (c.onWriteBlocked i blocked) := by
  unfold onWriteBlocked
  split
  · exact (safe_inc (k := .streamWriteBlocked) rfl rfl).trans (safe_touch fun _ => rfl)
  · exact safe_touch fun _ => rfl

/-- What a client has to do in its own ways for its books to be right. -/
structure Flavour.Sound (F : Flavour τ ρ) (heard : Bool → Bool → Bool) : Prop where
  ready : ∀ (c : StreamClient τ ρ) (i : Nat) (encodes : Bool), Inv heard c →
    i < c.config.streamCount.toNat → (c.streams i).pooled = true →
    Safe heard c (F.onStreamReady c i encodes)
  /-- the handle of a stream that the pool has not answered for is kept -/
  keeps : ∀ s : Stream τ ρ, s.state = .opening → s.encoder = false → F.keepsCancellable s = true

section Flavour

variable {F : Flavour τ ρ} (hF : F.Sound heard)

include hF

theorem safe_onSignal {s : Signal} (h : Inv heard c) (hs : c.Raisable s) :
    Safe heard c (c.onSignal F s) := by
  cases s with
  | ready i encodes => exact hF.ready c i encodes h hs.1 hs.2
  | failure i => exact safe_onStreamOpenFailure hs.2
  | reset i => exact safe_onStreamReset hs.1 hs.2 F.noStatus
  | writeBlocked i blocked => exact safe_onWriteBlocked blocked

/-- **Whatever Envoy calls back from inside a call.** -/
theorem safe_raise (h : Inv heard c) (signals : List Signal) :
    Safe heard c (c.raise F signals) := by
  induction signals generalizing c with
  | nil => exact Safe.refl c
  | cons s signals ih =>
    unfold raise
    rw [List.foldl_cons]
    split
    next hs =>
      have hsignal := safe_onSignal hF h hs
      exact hsignal.trans (ih (hsignal.inv h))
    next => exact ih h

end Flavour

end Sortie.Engine.StreamClient
