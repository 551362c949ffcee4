import Sortie.Engine.UdpBenchmarkClient
import Sortie.Lib.Ledger
import Sortie.Proof.Callbacks

/-!
# The datagrams of the UDP client

A datagram that was sent is in flight until its echo is read, the sweep finds it too old,
or the client is done. The sweep looks at the front of the map only and stops there at the
first datagram that is still in time. That is enough since the map is in the order of the
sequence numbers, and a higher number was sent no earlier.
-/

namespace Sortie.Engine.UdpBenchmarkClientImpl

variable {c c' c'' : UdpBenchmarkClientImpl} {hexAtoi : HexAtoi}

/-! ## The ledger -/

/-- The callbacks of the datagrams in flight. -/
def pending (c : UdpBenchmarkClientImpl) : Multiset Nat :=
  (c.inflight.map (·.2.completionCallback) : List Nat)

/-- The datagrams of the client. -/
def ledger (c : UdpBenchmarkClientImpl) : Ledger where
  offered := c.callbacks.calls
  refused := c.counters .deferred + c.counters .unavailable + c.counters .sendErrors
  sent := c.counters .datagramsSent
  received := c.counters .datagramsReceived
  lost := c.counters .lost
  pending := c.pending
  posted := c.callbacks.due
  invoked := c.callbacks.done

/-- What no echo and no sweep changes. -/
def fixed (c : UdpBenchmarkClientImpl) : Config × Nat × Nat × Nat × Bool × Bool × Bool :=
  (c.config, c.callbacks.calls, c.nextSequence, c.clock, c.draining, c.finished, c.waiting)

/-- A piece of the client only takes datagrams out of flight, as a ledger allows. -/
structure Removes (c c' : UdpBenchmarkClientImpl) : Prop where
  fixed : c'.fixed = c.fixed
  ledger : Ledger.Steps c.ledger c'.ledger
  inflight : c'.inflight.Sublist c.inflight

theorem Removes.refl (c : UdpBenchmarkClientImpl) : Removes c c where
  fixed := rfl
  ledger := Ledger.Steps.refl _
  inflight := List.Sublist.refl _

theorem Removes.trans (h : Removes c c') (h' : Removes c' c'') : Removes c c'' where
  fixed := h'.fixed.trans h.fixed
  ledger := h.ledger.trans h'.ledger
  inflight := h'.inflight.trans h.inflight

section Complete

variable {sequence : Nat} {d : InflightDatagram}
  (h : c.inflight.find? (fun entry => entry.1 == sequence) = some (sequence, d))

include h

theorem pending_complete (success : Bool) :
    c.pending = d.completionCallback ::ₘ (c.complete sequence d success).pending := by
  unfold pending complete
  rw [Multiset.cons_coe, Multiset.coe_eq_coe]
  exact (Ledger.perm_eraseP_of_find h).map _

theorem removes_receive :
    Removes c ((c.inc .datagramsReceived).complete sequence d true) := by
  refine { Removes.refl c with ledger := .single ?_, inflight := List.eraseP_sublist }
  refine (Ledger.Step.receive (l := c.ledger) (pending_complete h true)).congr ?_
  exact congrArg (fun done =>
    { ((c.inc .datagramsReceived).complete sequence d true).ledger with invoked := done })
    (Callbacks.done_invoke _ _ _ _).symm

theorem removes_lose : Removes c ((c.inc .lost).complete sequence d false) := by
  refine { Removes.refl c with ledger := .single ?_, inflight := List.eraseP_sublist }
  refine (Ledger.Step.lose (l := c.ledger) (pending_complete h false)).congr ?_
  exact congrArg (fun done =>
    { ((c.inc .lost).complete sequence d false).ledger with invoked := done })
    (Callbacks.done_invoke _ _ _ _).symm

end Complete

section

variable {sequence : Nat} {d : InflightDatagram} {rest : List (Nat × InflightDatagram)}

theorem find?_front :
    ((sequence, d) :: rest).find? (fun entry => entry.1 == sequence) = some (sequence, d) :=
  List.find?_cons_of_pos (beq_self_eq_true sequence)

/-- The front of the map is taken out by its key. -/
theorem inflight_complete_front (h : c.inflight = (sequence, d) :: rest) (success : Bool) :
    (c.complete sequence d success).inflight = rest := by
  show c.inflight.eraseP (fun entry => entry.1 == sequence) = rest
  rw [h]
  exact List.eraseP_cons_of_pos (beq_self_eq_true sequence)

end

/-! ## Reading and sweeping -/

/-- The client does something that concerns neither its datagrams nor its callbacks. -/
theorem removes_unexpected : Removes c (c.inc .unexpected) := { Removes.refl c with }

theorem removes_exitIfDrained : Removes c c.exitIfDrained := by
  unfold exitIfDrained
  split
  · exact { Removes.refl c with }
  · exact Removes.refl c

theorem removes_addLatency (latency : Nat) : Removes c (c.addLatency latency) := by
  unfold addLatency
  split
  · exact { Removes.refl c with }
  · exact Removes.refl c

theorem removes_onDatagram (bytes : List UInt8) (now : Nat) :
    Removes c (c.onDatagram hexAtoi bytes now) := by
  unfold onDatagram
  split
  · exact removes_unexpected
  next sequence _ =>
    split
    · exact removes_unexpected
    next key d hfind =>
      obtain rfl : key = sequence.toNat := by
        have := List.find?_some hfind
        simpa using this
      exact ((removes_receive hfind).trans (removes_addLatency _)).trans removes_exitIfDrained

theorem removes_onReadable (reads : List (Option (List UInt8))) (now : Nat) :
    Removes c (onReadable hexAtoi now reads c) := by
  induction reads generalizing c with
  | nil => exact Removes.refl c
  | cons read reads ih =>
    cases read with
    | none => exact Removes.refl c
    | some bytes =>
      unfold onReadable
      split
      · exact Removes.refl c
      · exact (removes_onDatagram bytes now).trans ih

theorem removes_expire (now turns : Nat) : Removes c (expire now turns c) := by
  induction turns generalizing c with
  | zero => exact Removes.refl c
  | succ turns ih =>
    unfold expire
    split
    · exact Removes.refl c
    next sequence d rest hfront =>
      split
      · refine (removes_lose ?_).trans ih
        rw [hfront]
        exact find?_front
      · exact Removes.refl c

theorem removes_completeAll (turns : Nat) : Removes c (completeAll false turns c) := by
  induction turns generalizing c with
  | zero => exact Removes.refl c
  | succ turns ih =>
    unfold completeAll
    split
    · exact Removes.refl c
    next sequence d rest hfront =>
      refine (removes_lose ?_).trans ih
      rw [hfront]
      exact find?_front

theorem inflight_completeAll {turns : Nat} (hturns : c.inflight.length ≤ turns) :
    (completeAll false turns c).inflight = [] := by
  induction turns generalizing c with
  | zero => exact List.length_eq_zero_iff.mp (Nat.le_zero.mp hturns)
  | succ turns ih =>
    unfold completeAll
    split
    next hempty => exact hempty
    next sequence d rest hfront =>
      refine ih ?_
      rw [show ((if false = true then c else c.inc .lost).complete sequence d false).inflight = rest
        from inflight_complete_front (c := c.inc .lost) hfront false]
      rw [hfront, List.length_cons] at hturns
      omega

theorem removes_sweep (now : Nat) : Removes c (c.sweep now) := by
  unfold sweep
  dsimp only
  have hexpire := removes_expire (c := c) now c.inflight.length
  split
  · exact { hexpire with }
  · exact { hexpire with }

/-! ## What every call keeps -/

/-- The books balance, and the map is in the order of the sends. -/
structure Kept (c : UdpBenchmarkClientImpl) : Prop where
  balanced : c.ledger.Balanced
  bounded : c.inflight.length ≤ c.config.maxInflight.toNat
  keys : c.inflight.Pairwise (fun a b => a.1 < b.1)
  times : c.inflight.Pairwise (fun a b => a.2.sentAt ≤ b.2.sentAt)
  numbered : ∀ entry ∈ c.inflight, entry.1 < c.nextSequence
  past : ∀ entry ∈ c.inflight, entry.2.sentAt ≤ c.clock
  drained : c.finished = true → c.waiting = false → c.inflight = []
  draining : c.finished = true → c.draining = true
  waits : c.waiting = true → c.finished = true

theorem Removes.kept (h : Removes c c') (hk : Kept c) : Kept c' := by
  obtain ⟨hfixed, hledger, hsub⟩ := h
  simp only [UdpBenchmarkClientImpl.fixed, Prod.mk.injEq] at hfixed
  obtain ⟨hconfig, -, hnext, hclock, hdraining, hfinished, hwaiting⟩ := hfixed
  refine ⟨hledger.balanced hk.balanced, ?_, hk.keys.sublist hsub, hk.times.sublist hsub, ?_, ?_,
    ?_, ?_, ?_⟩
  · rw [hconfig]
    exact hsub.length_le.trans hk.bounded
  · rw [hnext]
    exact fun entry he => hk.numbered entry (hsub.subset he)
  · rw [hclock]
    exact fun entry he => hk.past entry (hsub.subset he)
  · rw [hfinished, hwaiting]
    intro hf hw
    rw [hk.drained hf hw] at hsub
    exact List.sublist_nil.mp hsub
  · rw [hfinished, hdraining]
    exact hk.draining
  · rw [hfinished, hwaiting]
    exact hk.waits

theorem kept_new (config : Config) : Kept { config := config } where
  balanced := Ledger.balanced_empty
  bounded := Nat.zero_le _
  keys := List.Pairwise.nil
  times := List.Pairwise.nil
  numbered := nofun
  past := nofun
  drained := nofun
  draining := nofun
  waits := nofun

theorem kept_tick {now : Nat} (hk : Kept c) (hnow : c.clock ≤ now) : Kept (c.tick now) :=
  { hk with past := fun entry he => (hk.past entry he).trans hnow }

/-- A datagram that is not sent changes nothing but its counter and its callback. -/
theorem kept_drop {k : Counter} (hk : Kept c)
    (hcounter : k = .deferred ∨ k = .unavailable ∨ k = .sendErrors) :
    Kept ({ c with callbacks := c.callbacks.give }.drop k c.callbacks.calls) := by
  refine { hk with balanced := ?_ }
  refine Ledger.Step.balanced ?_ hk.balanced
  refine (Ledger.Step.refuse (l := c.ledger)).congr ?_
  have hdue := Callbacks.due_post c.callbacks.give c.callbacks.calls true false
  rcases hcounter with rfl | rfl | rfl
  all_goals refine Ledger.ext rfl ?_ rfl rfl rfl rfl rfl hdue.symm rfl
  · exact (Nat.add_right_comm _ _ 1).trans (congrArg (· + _) (Nat.add_right_comm _ _ 1))
  · exact Nat.add_right_comm _ _ 1
  · rfl

/-- A number higher than all others goes to the end of the map. -/
theorem emplace_of_lt {sequence : Nat} {d : InflightDatagram} {l : List (Nat × InflightDatagram)}
    (h : ∀ entry ∈ l, entry.1 < sequence) : emplace sequence d l = l ++ [(sequence, d)] := by
  induction l with
  | nil => rfl
  | cons entry rest ih =>
    have hentry := h entry List.mem_cons_self
    unfold emplace
    rw [if_neg (by omega), if_neg (by omega), ih fun e he => h e (List.mem_cons_of_mem _ he)]
    rfl

/-- The client once it has sent a datagram. -/
def withSent (c : UdpBenchmarkClientImpl) (now : Nat) : UdpBenchmarkClientImpl :=
  let entry : InflightDatagram := { sentAt := now, completionCallback := c.callbacks.calls }
  { c.inc .datagramsSent with
    callbacks := c.callbacks.give
    nextSequence := c.nextSequence + 1
    inflight := c.inflight ++ [(c.nextSequence, entry)] }

theorem kept_withSent (hk : Kept c) (hroom : c.inflight.length < c.config.maxInflight.toNat)
    (hfinished : c.finished = false) : Kept (c.withSent c.clock) where
  balanced := by
    refine Ledger.Step.balanced ?_ hk.balanced
    refine (Ledger.Step.send (l := c.ledger)).congr ?_
    refine Ledger.ext rfl rfl rfl rfl rfl rfl ?_ rfl rfl
    show c.callbacks.calls ::ₘ c.pending = (c.withSent c.clock).pending
    unfold pending withSent
    rw [List.map_append, ← Multiset.coe_add, Multiset.add_comm]
    rfl
  bounded := by
    show (c.inflight ++ [_]).length ≤ _
    rw [List.length_append]
    exact hroom
  keys := by
    refine List.pairwise_append.mpr ⟨hk.keys, List.pairwise_singleton _ _, ?_⟩
    intro a ha b hb
    rw [List.mem_singleton.mp hb]
    exact hk.numbered a ha
  times := by
    refine List.pairwise_append.mpr ⟨hk.times, List.pairwise_singleton _ _, ?_⟩
    intro a ha b hb
    rw [List.mem_singleton.mp hb]
    exact hk.past a ha
  numbered := by
    intro entry he
    rcases List.mem_append.mp he with he | he
    · exact (hk.numbered entry he).trans (Nat.lt_succ_self _)
    · rw [List.mem_singleton.mp he]
      exact Nat.lt_succ_self _
  past := by
    intro entry he
    rcases List.mem_append.mp he with he | he
    · exact hk.past entry he
    · rw [List.mem_singleton.mp he]
      exact Nat.le_refl _
  drained := fun hf => nomatch hfinished.symm.trans hf
  draining := fun hf => nomatch hfinished.symm.trans hf
  waits := hk.waits

theorem kept_tryStartRequest (writes : List UInt8 → Bool) (hk : Kept c) :
    Kept (c.tryStartRequest writes c.clock) := by
  unfold tryStartRequest
  dsimp only
  split
  · exact kept_drop hk (.inr (.inl rfl))
  next hready =>
    split
    · exact kept_drop hk (.inl rfl)
    next hroom =>
      split
      · -- the number is used up all the same
        have hnumber : Kept { c with nextSequence := c.nextSequence + 1 } :=
          { hk with numbered := fun e he => (hk.numbered e he).trans (Nat.lt_succ_self _) }
        exact kept_drop hnumber (.inr (.inr rfl))
      · have hsent := kept_withSent hk (Nat.lt_of_not_le hroom) (by
          cases hf : c.finished with
          | false => rfl
          | true =>
            rw [hk.draining hf] at hready
            simp at hready)
        have hplace := emplace_of_lt
          (d := { sentAt := c.clock, completionCallback := c.callbacks.calls }) hk.numbered
        unfold withSent at hsent
        dsimp only at hsent
        rw [← hplace] at hsent
        exact hsent

/-- Giving up on what is in flight leaves nothing behind. -/
theorem kept_giveUp (hbalanced : c.ledger.Balanced) (hdraining : c.draining = true)
    (hwaiting : c.waiting = false) : Kept c.giveUp := by
  have hremoves := removes_completeAll (c := c) c.inflight.length
  have hempty : c.giveUp.inflight = [] := inflight_completeAll (Nat.le_refl _)
  have hfixed := hremoves.fixed
  simp only [fixed, Prod.mk.injEq] at hfixed
  obtain ⟨-, -, -, -, hdraining', -, hwaiting'⟩ := hfixed
  refine ⟨hremoves.ledger.balanced hbalanced, ?_, ?_, ?_, ?_, ?_, fun _ _ => hempty,
    fun _ => hdraining'.trans hdraining, fun hw => nomatch (hwaiting'.trans hwaiting).symm.trans hw⟩
  all_goals rw [hempty]
  · exact Nat.zero_le _
  · exact List.Pairwise.nil
  · exact List.Pairwise.nil
  · exact nofun
  · exact nofun

theorem kept_finish (hk : Kept c) (hwaiting : c.waiting = false) : Kept c.finish := by
  unfold finish
  split
  · exact hk
  · dsimp only
    split
    · exact { hk with
        drained := nofun
        draining := fun _ => rfl
        waits := fun _ => rfl }
    · exact kept_giveUp hk.balanced rfl hwaiting

theorem kept_terminate (hk : Kept c) (hwaiting : c.waiting = false) : Kept c.terminate := by
  have hfinish := kept_finish hk hwaiting
  unfold terminate
  dsimp only
  split <;> exact { hfinish with }

theorem kept_finishWait (hk : Kept c) (hwaiting : c.waiting = true) : Kept c.finishWait := by
  have hdraining := hk.draining (hk.waits hwaiting)
  have hgiveUp : Kept { c with drainTimer := false, waiting := false }.giveUp :=
    kept_giveUp hk.balanced hdraining rfl
  unfold finishWait
  dsimp only
  split
  · exact { hgiveUp with }
  · exact hgiveUp

theorem kept_posted {b : Callbacks} (hk : Kept c) (hb : c.callbacks.runPosted = some b) :
    Kept { c with callbacks := b } := by
  obtain ⟨hcalls, id, hdue, hdone⟩ := Callbacks.runPosted_some hb
  refine { hk with balanced := Ledger.Step.balanced ?_ hk.balanced }
  exact (Ledger.Step.run (l := c.ledger) hdue).congr
    (Ledger.ext hcalls.symm rfl rfl rfl rfl rfl rfl rfl hdone.symm)

/-- The event is the failure of `prepare`. -/
def Event.isFailedPrepare : Event → Bool
  | .prepare _ connects => !connects
  | _ => false

/-- **The invariant, call by call**, unless the socket cannot be set up. -/
theorem kept_step {e : Event} (he : e.isFailedPrepare = false) (hk : Kept c)
    (hs : c.step hexAtoi e = some c') : Kept c' := by
  cases e
  case setShouldMeasureLatencies =>
    cases hs
    exact { hk with }
  case posted =>
    obtain ⟨b, hb, rfl⟩ := Option.map_eq_some_iff.mp hs
    exact kept_posted hk hb
  all_goals obtain ⟨hguard, rfl⟩ := Lts.guarded hs
  case prepare connects =>
    obtain rfl : connects = true := by simpa [Event.isFailedPrepare] using he
    exact { hk with }
  case tryStartRequest writes now => exact kept_tryStartRequest writes (kept_tick hk hguard)
  case onReadable reads now => exact (removes_onReadable reads now).kept (kept_tick hk hguard.1)
  case sweep now => exact (removes_sweep now).kept { kept_tick hk hguard.1 with }
  case finish => exact kept_finish hk hguard
  case drainTimer => exact { hk with }
  case finishWait => exact kept_finishWait hk hguard.1
  case terminate => exact kept_terminate hk hguard

theorem kept_run {config : Config} {es : List Event} (h : Reaches hexAtoi config es c)
    (hprepared : ∀ e ∈ es, e.isFailedPrepare = false) : Kept c :=
  h.invariant_on hprepared (kept_new config) (fun _ _ _ he hk hs => kept_step he hk hs)

/-! ## The sweep -/

/-- The time of a call of `tryStartRequest`. -/
def Event.startsAt : Event → Option Nat
  | .tryStartRequest _ now => some now
  | _ => none

/-- The times of the calls of `tryStartRequest`. -/
def startTimes (es : List Event) : List Nat := es.filterMap Event.startsAt

/-- When the datagram of an entry was started: the time of the call that gave its callback. -/
def startTime (es : List Event) (entry : Nat × InflightDatagram) : Nat :=
  (startTimes es)[entry.2.completionCallback]?.getD 0

/-- A call of `tryStartRequest` gives a callback, and what it adds to the map has that callback and
the time of the call; no other call does either. -/
structure Starts (start : Option Nat) (c c' : UdpBenchmarkClientImpl) : Prop where
  calls : c'.callbacks.calls = c.callbacks.calls + start.toList.length
  inflight : ∀ entry ∈ c'.inflight, entry ∈ c.inflight
    ∨ start = some entry.2.sentAt ∧ entry.2.completionCallback = c.callbacks.calls

theorem Removes.starts (h : Removes c c') : Starts none c c' where
  calls := congrArg (fun fixed => fixed.2.1) h.fixed
  inflight := fun _ he => .inl (h.inflight.subset he)

/-- Every call of `tryStartRequest` is a datagram that was sent, deferred, unavailable or failed to
be sent, every datagram that was sent is answered, lost or in flight, and every callback is invoked
once. -/
structure Accounted (es : List Event) (c : UdpBenchmarkClientImpl) : Prop where
  calls : (startTimes es).length
    = c.counters .datagramsSent + c.counters .deferred + c.counters .unavailable
      + c.counters .sendErrors
  datagrams : c.counters .datagramsSent
    = c.counters .datagramsReceived + c.counters .lost + c.inflight.length
  bounded : c.inflight.length ≤ c.config.maxInflight.toNat
  /-- the map is iterated in the order of its keys, and that is the order of the sends -/
  keys : c.inflight.Pairwise (fun a b => a.1 < b.1)
  times : c.inflight.Pairwise (fun a b => startTime es a ≤ startTime es b)
  /-- a datagram in flight is one of a call of `tryStartRequest`, and was sent when that was called
  -/
  sent : ∀ entry ∈ c.inflight, entry.2.completionCallback < (startTimes es).length
    ∧ entry.2.sentAt = startTime es entry
  /-- the callback of each call was invoked, or will be, and never twice -/
  callbacks : ∀ call < (startTimes es).length,
    (c.callbacks.invoked.map (·.1)).count call + (c.callbacks.posted.map (·.1)).count call
      + (c.inflight.map (·.2.completionCallback)).count call = 1
  /-- when `finish` has returned nothing is in flight -/
  drained : c.finished = true → c.waiting = false → c.inflight = []
  /-- and when the dispatcher has run what was posted, every callback was invoked -/
  completed : c.finished = true → c.waiting = false → c.callbacks.posted = [] →
    ∀ call < (startTimes es).length, (c.callbacks.invoked.map (·.1)).count call = 1

end Sortie.Engine.UdpBenchmarkClientImpl
