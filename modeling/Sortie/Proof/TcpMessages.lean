import Sortie.Engine.TcpBenchmarkClient
import Sortie.Lib.Ledger
import Sortie.Proof.Callbacks

/-!
# The messages of the TCP client

Whatever a call of the TCP client does, and whatever Envoy raises inside it, it does to
messages what a ledger allows: it refuses them, sends them, receives their echoes or
loses them. `Moves` says that of a piece of the client, together with what the pieces
need of each other, and it is composed along the code.
-/

namespace Sortie.Engine.TcpBenchmarkClientImpl

variable {c c' c'' : TcpBenchmarkClientImpl}
variable {f : Link → Link} {d d' : Int} {k : Counter}

/-! ## Links -/

variable {id j : Nat}

theorem link_updateLink_self (h : id < c.links.length) :
    (c.updateLink id f).link id = f (c.link id) :=
  Ledger.getD_modify_self h

theorem link_updateLink_of_ne (h : j ≠ id) : (c.updateLink id f).link j = c.link j :=
  Ledger.getD_modify_of_ne h

/-- Where there is no link there is nothing to update. -/
theorem updateLink_of_le (h : c.links.length ≤ id) : c.updateLink id f = c := by
  unfold updateLink
  rw [List.modify_eq_self h]

/-- What holds of an updated link and of all links holds of the links after an update. -/
theorem link_updateLink {P : Nat → Link → Prop} (hf : P id (f (c.link id)))
    (h : ∀ j, P j (c.link j)) (j : Nat) : P j ((c.updateLink id f).link j) := by
  by_cases hid : id < c.links.length
  · by_cases hj : j = id
    · rw [hj, link_updateLink_self hid]
      exact hf
    · rw [link_updateLink_of_ne hj]
      exact h j
  · rw [updateLink_of_le (Nat.le_of_not_lt hid)]
    exact h j

theorem lt_length_of_inflight (h : (c.link id).inflight ≠ []) : id < c.links.length := by
  by_contra hle
  apply h
  unfold link
  rw [List.getD_eq_default _ _ (Nat.le_of_not_lt hle)]

theorem lt_length_of_state (h : (c.link id).state ≠ .closed) :
    id < c.links.length := by
  by_contra hle
  apply h
  unfold link
  rw [List.getD_eq_default _ _ (Nat.le_of_not_lt hle)]

/-! ## The ledger -/

/-- The callbacks of the messages that a link has in flight. -/
def Link.pending (l : Link) : Multiset Nat := l.inflight.map InflightMessage.completionCallback

/-- The messages of the client. Without echoes nobody waits for a message. -/
def ledger (c : TcpBenchmarkClientImpl) : Ledger where
  offered := c.callbacks.calls
  refused := c.counters .deferred + c.counters .unavailable
  sent := c.counters .messagesSent
  unawaited := if c.config.expectEcho then 0 else c.counters .messagesSent
  received := c.counters .messagesReceived
  lost := c.counters .inflightLost
  pending := Ledger.held Link.pending c.links
  posted := c.callbacks.due
  invoked := c.callbacks.done

/-- How many more connections were opened than are accounted for. -/
def excess (c : TcpBenchmarkClientImpl) : Int :=
  c.counters .connectionsOpened
    - (c.initialConnects + c.counters .reconnects + c.counters .connectionsRotated : Nat)

/-- The counters of messages and of successful connects. -/
def Counter.isBooked : Counter → Bool
  | .messagesSent | .messagesReceived | .deferred | .unavailable | .inflightLost => true
  | .connectionsOpened | .reconnects | .connectionsRotated => true
  | _ => false

/-- A link that stands by is not the first one of its slot. -/
def Fresh (c : TcpBenchmarkClientImpl) : Prop :=
  ∀ i id, (c.slots i).standby = some id → id < c.links.length ∧ (c.link id).initial = false

/-- A piece of the client moves messages as a ledger allows, and takes messages from links only; it
adds `d` to the excess of connections. -/
structure Carries (d : Int) (c c' : TcpBenchmarkClientImpl) : Prop where
  config : c'.config = c.config
  calls : c'.callbacks.calls = c.callbacks.calls
  ledger : Ledger.Steps c.ledger c'.ledger
  inflight : ∀ id, (c'.link id).inflight <:+ (c.link id).inflight
  fresh : c.Fresh → c'.Fresh
  excess : c.Fresh → c'.excess = c.excess + d

/-- It also leaves no message on a link it closes. -/
structure Moves (d : Int) (c c' : TcpBenchmarkClientImpl) : Prop extends Carries d c c' where
  closed : ∀ id, (c'.link id).state = .closed → (c.link id).state ≠ .closed →
    (c'.link id).inflight = []

theorem Carries.trans (h : Carries d c c') (h' : Carries d' c' c'') :
    Carries (d + d') c c'' where
  config := h'.config.trans h.config
  calls := h'.calls.trans h.calls
  ledger := h.ledger.trans h'.ledger
  inflight := fun id => (h'.inflight id).trans (h.inflight id)
  fresh := fun hf => h'.fresh (h.fresh hf)
  excess := fun hf => by rw [h'.excess (h.fresh hf), h.excess hf, add_assoc]

theorem Moves.refl (c : TcpBenchmarkClientImpl) : Moves 0 c c where
  config := rfl
  calls := rfl
  ledger := Ledger.Steps.refl _
  inflight := fun _ => List.suffix_rfl
  closed := fun _ h hn => absurd h hn
  fresh := fun hf => hf
  excess := fun _ => (add_zero _).symm

theorem Moves.trans (h : Moves d c c') (h' : Moves d' c' c'') :
    Moves (d + d') c c'' where
  toCarries := h.toCarries.trans h'.toCarries
  closed := by
    intro id hclosed hn
    by_cases hmid : (c'.link id).state = .closed
    · have hsuffix := h'.inflight id
      rw [h.closed id hmid hn] at hsuffix
      exact List.suffix_nil.mp hsuffix
    · exact h'.closed id hclosed hmid

theorem Moves.rebook (h : Moves d c c') (hd : c.Fresh → d = d') : Moves d' c c' :=
  { h with excess := fun hf => by rw [h.excess hf, hd hf] }

/-- Two pieces that each account for their connections. -/
theorem Moves.then (h : Moves 0 c c') (h' : Moves 0 c' c'') : Moves 0 c c'' := h.trans h'

/-- The client does something that concerns neither its messages nor its links. -/
theorem Moves.quiet (hconfig : c'.config = c.config) (hlinks : c'.links = c.links)
    (hcallbacks : c'.callbacks = c.callbacks) (hinitial : c'.initialConnects = c.initialConnects)
    (hslots : ∀ i id, (c'.slots i).standby = some id → (c.slots i).standby = some id)
    (hcounters : ∀ k : Counter, k.isBooked = true → c'.counters k = c.counters k) :
    Moves 0 c c' where
  config := hconfig
  calls := congrArg Callbacks.calls hcallbacks
  ledger := by
    refine Ledger.Steps.of_eq ?_
    unfold TcpBenchmarkClientImpl.ledger
    rw [hconfig, hlinks, hcallbacks, hcounters _ rfl, hcounters _ rfl, hcounters _ rfl,
      hcounters _ rfl, hcounters _ rfl]
  inflight := fun id => by
    unfold link
    rw [hlinks]
  closed := fun id h hn => by
    unfold link at h hn
    rw [hlinks] at h
    exact absurd h hn
  fresh := fun hf i id hi => by
    unfold link
    rw [hlinks]
    exact hf i id (hslots i id hi)
  excess := fun _ => by
    unfold TcpBenchmarkClientImpl.excess
    rw [hinitial, hcounters _ rfl, hcounters _ rfl, hcounters _ rfl, add_zero]

/-- Where messages, links and connects are booked. -/
def books (c : TcpBenchmarkClientImpl) :
    Config × List Link × Callbacks × Nat × (Counter → Nat) × (Nat → Option Nat) :=
  (c.config, c.links, c.callbacks, c.initialConnects, c.counters, fun i => (c.slots i).standby)

theorem Moves.idle (h : c'.books = c.books) : Moves 0 c c' := by
  simp only [books, Prod.mk.injEq] at h
  obtain ⟨hconfig, hlinks, hcallbacks, hinitial, hcounters, hstandby⟩ := h
  exact Moves.quiet hconfig hlinks hcallbacks hinitial
    (fun i _ hi => (congrFun hstandby i).symm.trans hi) (fun k _ => congrFun hcounters k)

theorem moves_inc (hk : k.isBooked = false) : Moves 0 c (c.inc k) := by
  refine Moves.quiet rfl rfl rfl rfl (fun _ _ hi => hi) (fun k' hk' => if_neg (fun h => ?_))
  rw [h, hk] at hk'
  cases hk'

theorem moves_updateSlot (i : Nat) {f : Slot → Slot}
    (hf : ∀ s id, (f s).standby = some id → s.standby = some id) :
    Moves 0 c (c.updateSlot i f) := by
  refine Moves.quiet rfl rfl rfl rfl (fun j id hj => ?_) (fun _ _ => rfl)
  unfold updateSlot at hj
  dsimp only at hj
  split at hj
  · exact hf _ id hj
  · exact hj

theorem length_updateLink (id : Nat) (f : Link → Link) :
    (c.updateLink id f).links.length = c.links.length := List.length_modify _ _ _

theorem Fresh.updateLink (h : c.Fresh) (hf : ∀ l, (f l).initial = l.initial) :
    (c.updateLink id f).Fresh := by
  intro i j hj
  obtain ⟨hlt, hinitial⟩ := h i j hj
  refine ⟨by rw [length_updateLink]; exact hlt, Eq.trans ?_ hinitial⟩
  exact link_updateLink (P := fun j l => l.initial = (c.link j).initial) (hf _) (fun _ => rfl) j

section

variable (hf : ∀ l, (f l).inflight = l.inflight ∧ (f l).initial = l.initial)
include hf

/-- A link is changed, but neither its messages nor whether it is the first one. -/
theorem carries_updateLink :
    Carries 0 c (c.updateLink id f) where
  config := rfl
  calls := rfl
  ledger := by
    refine Ledger.Steps.of_eq ?_
    have hheld :
        Ledger.held Link.pending (c.links.modify id f) = Ledger.held Link.pending c.links :=
      Ledger.held_modify_same _ (fun l => by unfold Link.pending; rw [(hf l).1])
    unfold TcpBenchmarkClientImpl.ledger updateLink
    rw [hheld]
  inflight := link_updateLink (P := fun j l => l.inflight <:+ (c.link j).inflight)
    (by rw [(hf _).1]) (fun _ => List.suffix_rfl)
  fresh := fun h => h.updateLink fun l => (hf l).2
  excess := fun _ => (add_zero _).symm

/-- It is not closed either. -/
theorem moves_updateLink (hclosed : (f (c.link id)).state = .closed → (c.link id).state = .closed) :
    Moves 0 c (c.updateLink id f) where
  toCarries := carries_updateLink hf
  closed := by
    refine link_updateLink
      (P := fun j l => l.state = .closed → (c.link j).state ≠ .closed → l.inflight = []) ?_ ?_
    · exact fun h hn => absurd (hclosed h) hn
    · exact fun _ h hn => absurd h hn

end

/-! ## Bookkeeping -/

theorem moves_scheduleRetry (i now : Nat) : Moves 0 c (c.scheduleRetry i now) := by
  unfold scheduleRetry
  split
  · exact Moves.refl c
  · exact moves_updateSlot i (fun _ _ hi => hi)

theorem moves_maybeExitWaitLoop : Moves 0 c c.maybeExitWaitLoop := by
  unfold maybeExitWaitLoop
  split
  · split
    · exact Moves.idle rfl
    · exact Moves.refl c
  · split
    · exact Moves.refl c
    · exact Moves.idle rfl
  · exact Moves.refl c

theorem moves_initialAttemptDone (id : Nat) : Moves 0 c (c.initialAttemptDone id) := by
  unfold initialAttemptDone
  split
  · have hlink : Moves 0 c (c.updateLink id (fun l => { l with initialPending := false })) :=
      moves_updateLink (fun _ => ⟨rfl, rfl⟩) (fun h => h)
    exact hlink.then (Moves.idle rfl)
  · exact Moves.refl c

theorem moves_release (id : Nat) : Moves 0 c (c.release id).2 := by
  unfold release
  dsimp only
  split
  · exact moves_updateSlot (f := fun s => { s with active := none }) _ (fun _ _ hi => hi)
  · split
    · exact moves_updateSlot (f := fun s => { s with standby := none }) _ nofun
    · split
      · exact moves_updateSlot (f := fun s => { s with retiring := s.retiring.erase id }) _
          (fun _ _ hi => hi)
      · exact Moves.refl c

/-! ## Completing messages -/

variable {id : Nat} {message : InflightMessage} {rest : List InflightMessage}

section

variable (h : (c.link id).inflight = message :: rest)
include h

/-- The front of a link's queue is one of the pending messages, and it goes. -/
theorem held_completeFront (success : Bool) :
    Ledger.held Link.pending c.links
      = message.completionCallback
        ::ₘ Ledger.held Link.pending (c.completeFront id message success).links := by
  refine Ledger.held_of_modify Link.pending (d := { slot := 0, state := .closed })
    (lt_length_of_inflight (by rw [h]; exact nofun)) ?_
  show Link.pending (c.link id)
    = _ ::ₘ Link.pending { c.link id with inflight := (c.link id).inflight.tail }
  unfold Link.pending
  rw [h]
  rfl

theorem step_lose :
    Ledger.Step c.ledger ((c.inc .inflightLost).completeFront id message false).ledger := by
  refine (Ledger.Step.lose (l := c.ledger) (held_completeFront h false)).congr ?_
  exact congrArg (fun done => { ((c.inc .inflightLost).completeFront id message false).ledger with
    invoked := done }) (Callbacks.done_invoke _ _ _ _).symm

theorem step_receive :
    Ledger.Step c.ledger ((c.inc .messagesReceived).completeFront id message true).ledger := by
  refine (Ledger.Step.receive (l := c.ledger) (held_completeFront h true)).congr ?_
  exact congrArg (fun done =>
    { ((c.inc .messagesReceived).completeFront id message true).ledger with invoked := done })
    (Callbacks.done_invoke _ _ _ _).symm

end

theorem inflight_completeFront (success : Bool) (j : Nat) :
    ((c.completeFront id message success).link j).inflight <:+ (c.link j).inflight :=
  link_updateLink (P := fun j l => l.inflight <:+ (c.link j).inflight)
    (List.tail_suffix _) (fun _ => List.suffix_rfl) j

theorem state_completeFront (success : Bool) (j : Nat) :
    ((c.completeFront id message success).link j).state = (c.link j).state :=
  link_updateLink (P := fun j l => l.state = (c.link j).state) rfl (fun _ => rfl) j

/-- The front of a link's queue goes, and its counter books no connection. -/
theorem moves_complete {success : Bool}
    (hstep : Ledger.Step c.ledger ((c.inc k).completeFront id message success).ledger)
    (hexcess : (c.inc k).excess = c.excess) :
    Moves 0 c ((c.inc k).completeFront id message success) where
  config := rfl
  calls := rfl
  ledger := Ledger.Steps.single hstep
  inflight := inflight_completeFront success
  closed := fun j hclosed hn => by
    rw [state_completeFront] at hclosed
    exact absurd hclosed hn
  fresh := fun h => Fresh.updateLink h (fun _ => rfl)
  excess := fun _ => hexcess.trans (add_zero _).symm

/-- Losing the front of a link's queue. -/
theorem moves_lose (h : (c.link id).inflight = message :: rest) :
    Moves 0 c ((c.inc .inflightLost).completeFront id message false) :=
  moves_complete (step_lose h) rfl

/-- Receiving the echo of the front of a link's queue. -/
theorem moves_receive (h : (c.link id).inflight = message :: rest) :
    Moves 0 c ((c.inc .messagesReceived).completeFront id message true) :=
  moves_complete (step_receive h) rfl

/-- Losing everything a link has in flight: one message after another from the front. -/
theorem completeInflight_spec (id : Nat) :
    Moves 0 c (c.completeInflight id false) ∧ ((c.completeInflight id false).link id).inflight = []
      ∧ ∀ j ≠ id, (c.completeInflight id false).link j = c.link j := by
  have hloop : ∀ (messages : List InflightMessage) (c : TcpBenchmarkClientImpl),
      (c.link id).inflight = messages →
      let c' := messages.foldl
        (fun c message => (c.inc .inflightLost).completeFront id message false) c
      Moves 0 c c' ∧ (c'.link id).inflight = [] ∧ ∀ j ≠ id, c'.link j = c.link j := by
    intro messages
    induction messages with
    | nil => exact fun c h => ⟨Moves.refl c, h, fun _ _ => rfl⟩
    | cons message rest ih =>
      intro c h
      have hid : id < c.links.length := lt_length_of_inflight (by rw [h]; exact nofun)
      have hrest : (((c.inc .inflightLost).completeFront id message false).link id).inflight
          = rest := by
        show ((c.updateLink id (fun l => { l with inflight := l.inflight.tail })).link id).inflight
          = rest
        rw [link_updateLink_self hid, h]
        rfl
      obtain ⟨hmoves, hempty, hother⟩ := ih _ hrest
      refine ⟨(moves_lose h).then hmoves, hempty, fun j hj => (hother j hj).trans ?_⟩
      exact link_updateLink_of_ne hj
  exact hloop _ c rfl

/-! ## Closing and opening -/

theorem link_initialAttemptDone (hj : j ≠ id) :
    (c.initialAttemptDone id).link j = c.link j := by
  unfold initialAttemptDone
  split
  · exact link_updateLink_of_ne hj
  · rfl

section

variable (previous : State)

theorem moves_countClose : Moves 0 c (c.countClose previous) := by
  cases previous with
  | connecting | opened | retiring => exact moves_inc rfl
  | closed => exact Moves.refl c

theorem link_countClose (j : Nat) :
    (c.countClose previous).link j = c.link j := by
  cases previous <;> rfl

/-- A link is closed and everything it has in flight is lost. -/
theorem moves_shut :
    Moves 0 c ((((c.updateLink id Link.shut).initialAttemptDone id).countClose
      previous).completeInflight id false) := by
  obtain ⟨hlost, hempty, hother⟩ := completeInflight_spec id
    (c := ((c.updateLink id Link.shut).initialAttemptDone id).countClose previous)
  have hshut : Carries 0 c (c.updateLink id Link.shut) := carries_updateLink fun _ => ⟨rfl, rfl⟩
  refine ⟨((hshut.trans (moves_initialAttemptDone id).toCarries).trans
    (moves_countClose previous).toCarries).trans hlost.toCarries, ?_⟩
  intro j hclosed hn
  by_cases hj : j = id
  · rw [hj]
    exact hempty
  · rw [hother j hj, link_countClose, link_initialAttemptDone hj,
      link_updateLink_of_ne hj] at hclosed
    exact absurd hclosed hn

theorem moves_retryAfterClose (role : Role) (i now : Nat) :
    Moves 0 c (c.retryAfterClose previous role i now) := by
  unfold retryAfterClose
  split
  · exact moves_scheduleRetry i now
  · exact Moves.refl c

end

theorem moves_onClose (id : Nat) (net : Network) : Moves 0 c (c.onClose id net) :=
  (((moves_shut _).then (moves_release id)).then (moves_retryAfterClose _ _ _ _)).then
    moves_maybeExitWaitLoop

section

variable (id : Nat) (type : ConnectionCloseType) (net : Network)

theorem moves_close :
    Moves 0 c (c.close id type net) := by
  unfold close
  split
  · exact moves_onClose id net
  · split
    · exact moves_onClose id net
    · exact Moves.refl c

theorem moves_closeLink :
    Moves 0 c (c.closeLink id type net) := by
  unfold closeLink
  split
  · exact Moves.refl c
  · exact (moves_shut .closed).then (moves_close id type net)

end

theorem moves_foldl {α : Type} {f : TcpBenchmarkClientImpl → α → TcpBenchmarkClientImpl}
    (hf : ∀ d x, Moves 0 d (f d x)) (xs : List α) : Moves 0 c (xs.foldl f c) := by
  induction xs generalizing c with
  | nil => exact Moves.refl c
  | cons x xs ih => exact (hf c x).then ih

theorem moves_retire (id : Nat) (net : Network) : Moves 0 c (c.retire id net) := by
  have hretiring : Moves 0 c (c.updateLink id (fun l => { l with state := .retiring })) :=
    moves_updateLink (fun _ => ⟨rfl, rfl⟩) nofun
  unfold retire
  split
  · exact Moves.refl c
  · dsimp only
    split
    · exact hretiring.then (moves_closeLink id _ net)
    · exact hretiring.then (moves_updateLink (fun _ => ⟨rfl, rfl⟩) (fun h => h))

theorem moves_takeOver (i : Nat) : Moves 0 c (c.takeOver i) := by
  have hplacement : Moves 0 c { c with placements := c.placements ++ [.promoted i (c.slots i).active
      ((c.slots i).standby.map (fun id => (id, (c.link id).state)))] } :=
    Moves.idle rfl
  exact hplacement.then (moves_updateSlot
    (f := fun s => { s with active := s.standby, standby := none, retryTimer := none }) i nofun)

/-- The books of a counter of connects alone. -/
theorem moves_inc_connects (hk : k = .reconnects ∨ k = .connectionsRotated) :
    Moves (-1) c (c.inc k) :=
  { Moves.refl c with
    ledger := by
      refine Ledger.Steps.of_eq ?_
      rcases hk with rfl | rfl <;> rfl
    excess := fun _ => by
      unfold TcpBenchmarkClientImpl.excess inc
      rcases hk with rfl | rfl <;> simp only [reduceCtorEq, if_true, if_false] <;> omega }

/-- A promotion accounts for one connection. -/
theorem moves_promote (i : Nat) (net : Network) : Moves (-1) c (c.promote i net) := by
  unfold promote
  cases (c.slots i).active with
  | none => exact (moves_takeOver i).trans (moves_inc_connects (Or.inl rfl))
  | some id =>
    have hrest := (moves_updateSlot (c := (c.takeOver i).inc .connectionsRotated) i
      (f := fun s => { s with retiring := s.retiring ++ [id] }) (fun _ _ hi => hi)).then
        (moves_retire id net)
    exact ((moves_takeOver i).trans (moves_inc_connects (Or.inr rfl))).trans hrest

/-- A connect that succeeded is yet to be accounted for, unless it was an initial one. -/
theorem moves_countConnect (initial : Bool) (started now : Nat) :
    Moves (if initial then 0 else 1) c (c.countConnect initial started now) :=
  { Moves.refl c with
    excess := fun _ => by
      unfold TcpBenchmarkClientImpl.excess countConnect inc
      cases initial <;> simp only [reduceCtorEq, if_true, if_false] <;> omega }

theorem standby_initialAttemptDone (i : Nat) :
    ((c.initialAttemptDone id).slots i).standby = (c.slots i).standby := by
  unfold initialAttemptDone
  split <;> rfl

/-- Putting a link to use accounts for its connect, unless that was the first of the slot. -/
theorem moves_putToUse (id i : Nat) (initial : Bool) (net : Network) :
    ∃ d, Moves d c (c.putToUse id i initial net)
      ∧ (((c.slots i).standby = some id → initial = false) → d = if initial then 0 else -1) := by
  unfold putToUse
  by_cases hs : (c.slots i).standby = some id
  · rw [if_pos hs]
    exact ⟨-1, moves_promote i net, fun h => by rw [h hs]; rfl⟩
  · rw [if_neg hs]
    cases initial with
    | true => exact ⟨0, Moves.refl c, fun _ => rfl⟩
    | false => exact ⟨-1, moves_inc_connects (Or.inl rfl), fun _ => rfl⟩

theorem moves_onConnected (id : Nat) (net : Network) : Moves 0 c (c.onConnected id net) := by
  unfold onConnected
  split
  · exact Moves.refl c
  · have hopened :
        Moves 0 c (c.updateLink id (fun l => { l with state := .opened, timer := false })) :=
      moves_updateLink (fun _ => ⟨rfl, rfl⟩) nofun
    have hcount := (hopened.trans (moves_countConnect (c.link id).initial (c.link id).connectStarted
      net.now)).trans (moves_initialAttemptDone id)
    obtain ⟨d, huse, hd⟩ := moves_putToUse (c := ((c.updateLink id (fun l => { l with
      state := .opened
      timer := false })).countConnect (c.link id).initial (c.link id).connectStarted
        net.now).initialAttemptDone id) id (c.link id).slot (c.link id).initial net
    refine ((hcount.trans huse).rebook (fun hf => ?_)).then moves_maybeExitWaitLoop
    -- the link that stands by is not a first one, so the two halves of its connect cancel
    rw [hd (fun hs => by
      rw [standby_initialAttemptDone] at hs
      exact (hf _ _ hs).2)]
    cases (c.link id).initial <;> rfl

theorem moves_onEvent (id : Nat) (event : ConnectionEvent) (net : Network) :
    Moves 0 c (c.onEvent id event net) := by
  cases event with
  | connected => exact moves_onConnected id net
  | connectedZeroRtt => exact Moves.refl c
  | remoteClose => exact moves_onClose id net
  | localClose => exact moves_onClose id net

theorem link_place (i : Nat) (role : Role) (initial : Bool) (now j : Nat) :
    (c.place i role initial now).link j
      = if j = c.links.length then
          { slot := i, initial := initial, initialPending := initial, timer := true
            connectStarted := now }
        else c.link j :=
  Ledger.getD_append_singleton _ j

/-- A new link is as a missing one, as far as messages go, and stands by only if it is not a first
one. -/
theorem moves_place (i : Nat) {role : Role} {initial : Bool} (now : Nat)
    (h : role = .standby → initial = false) : Moves 0 c (c.place i role initial now) := by
  refine ⟨⟨rfl, rfl, Ledger.Steps.of_eq ?_, fun j => ?_, fun hf => ?_, fun _ => (add_zero _).symm⟩,
    fun j hclosed hn => ?_⟩
  · have hheld : Ledger.held Link.pending (c.place i role initial now).links
        = Ledger.held Link.pending c.links :=
      (Ledger.held_append Link.pending _).trans (add_zero _)
    unfold ledger
    rw [hheld]
    rfl
  · rw [link_place]
    split
    · exact List.nil_suffix
    · exact List.suffix_rfl
  · intro j id hj
    rw [link_place]
    have hlength : (c.place i role initial now).links.length = c.links.length + 1 :=
      List.length_append
    rw [hlength]
    -- it stands by in the slot from before, or is the new link
    have hcases : (c.slots j).standby = some id ∨ role = .standby ∧ id = c.links.length := by
      unfold place updateSlot at hj
      dsimp only at hj
      split at hj
      · split at hj
        · rename_i hrole
          exact Or.inr ⟨hrole, (Option.some.inj hj).symm⟩
        · exact Or.inl hj
      · exact Or.inl hj
    rcases hcases with hold | ⟨hrole, hid⟩
    · obtain ⟨hlt, hinitial⟩ := hf j id hold
      rw [if_neg (by omega)]
      exact ⟨by omega, hinitial⟩
    · rw [if_pos hid]
      exact ⟨by omega, h hrole⟩
  · rw [link_place] at hclosed
    split at hclosed
    · cases hclosed
    · exact absurd hclosed hn

theorem moves_openLink (i : Nat) {role : Role} {initial : Bool} (net : Network)
    (h : role = .standby → initial = false) : Moves 0 c (c.openLink i role initial net) := by
  unfold openLink
  split
  · exact (moves_place i net.now h).then (moves_foldl (fun d e => moves_onEvent _ e net) _)
  · exact (moves_inc rfl).then (moves_scheduleRetry i net.now)

theorem moves_connectNext (i : Nat) (net : Network) : Moves 0 c (c.connectNext i net) := by
  unfold connectNext
  split
  · exact Moves.refl c
  · split
    · split
      · exact moves_openLink i net nofun
      · exact Moves.refl c
    · split
      · exact moves_openLink i net (fun _ => rfl)
      · exact Moves.refl c

theorem moves_onTimer (id : Nat) (net : Network) : Moves 0 c (c.onTimer id net) := by
  unfold onTimer
  split
  · have hclose := (moves_inc (c := c) (k := .connectFailures) rfl).then
      (moves_closeLink id .noFlush net)
    exact (hclose.then (moves_scheduleRetry _ _)).then moves_maybeExitWaitLoop
  · exact moves_closeLink id _ net
  · exact Moves.refl c
  · exact Moves.refl c

theorem moves_onEchoMismatch (id : Nat) (net : Network) : Moves 0 c (c.onEchoMismatch id net) := by
  have hclose := (moves_inc (c := c) (k := .echoMismatch) rfl).then
    (moves_closeLink id .noFlush net)
  unfold onEchoMismatch
  dsimp only
  split
  · exact (hclose.then (moves_scheduleRetry _ _)).then moves_maybeExitWaitLoop
  · exact hclose.then moves_maybeExitWaitLoop

theorem moves_addLatency (id latency : Nat) : Moves 0 c (c.addLatency id latency) := by
  unfold addLatency
  split
  · exact Moves.idle rfl
  · exact Moves.refl c

theorem moves_closeIfDone (id : Nat) (net : Network) : Moves 0 c (c.closeIfDone id net) := by
  unfold closeIfDone
  split
  · exact moves_closeLink id _ net
  · exact Moves.refl c

theorem moves_onEcho (id : Nat) (bytes : List UInt8) (net : Network) :
    Moves 0 c (c.onEcho id bytes net) := by
  unfold onEcho
  split
  · exact moves_onEchoMismatch id net
  · rename_i message rest hinflight
    split
    · exact moves_onEchoMismatch id net
    · exact (((moves_receive hinflight).then (moves_addLatency id _)).then
        (moves_closeIfDone id net)).then moves_maybeExitWaitLoop

theorem moves_matchEchoes (id : Nat) (net : Network) (turns : Nat) :
    Moves 0 c (matchEchoes id net turns c) := by
  induction turns generalizing c with
  | zero => exact Moves.refl c
  | succ turns ih =>
    unfold matchEchoes
    dsimp only
    split
    · refine Moves.then (Moves.then ?_ (moves_onEcho id _ net)) ih
      exact moves_updateLink (fun _ => ⟨rfl, rfl⟩) (fun h => h)
    · exact Moves.refl c

theorem moves_onData (id : Nat) (data : List UInt8) (net : Network) :
    Moves 0 c (c.onData id data net) := by
  unfold onData
  split
  · exact Moves.refl c
  · refine Moves.then ?_ (moves_matchEchoes id net _)
    exact moves_updateLink (fun _ => ⟨rfl, rfl⟩) (fun h => h)

theorem moves_onWriteBlocked (id : Nat) (blocked : Bool) :
    Moves 0 c (c.onWriteBlocked id blocked) := by
  unfold onWriteBlocked
  split
  · exact (moves_inc (k := .writeBlocked) rfl).then
      (moves_updateLink (fun _ => ⟨rfl, rfl⟩) (fun h => h))
  · exact moves_updateLink (fun _ => ⟨rfl, rfl⟩) (fun h => h)

theorem moves_openAll (nets : Nat → Network) : Moves 0 c (c.openAll nets) :=
  moves_foldl
    (fun d i => (moves_openLink i (nets i) nofun : Moves 0 d (d.openLink i .active true _))) _

theorem moves_closeAll (net : Network) : Moves 0 c (c.closeAll net) := by
  refine moves_foldl (fun d id => ?_) _
  split
  · exact moves_closeLink id _ net
  · exact (moves_inc (k := .drainIncomplete) rfl).then (moves_closeLink id _ net)

theorem moves_stopOpening : Moves 0 c c.stopOpening := Moves.idle rfl

section

variable (net : Network)

theorem moves_dropConnects : Moves 0 c (c.dropConnects net) := by
  refine moves_foldl (fun d id => ?_) _
  split
  · exact moves_closeLink id _ net
  · exact Moves.refl d

theorem moves_finish : Moves 0 c (c.finish net) := by
  have hdown := (moves_stopOpening (c := c)).then (moves_dropConnects net)
  unfold finish
  split
  · exact Moves.refl c
  · dsimp only
    split
    · exact hdown.then (Moves.idle rfl)
    · exact hdown.then (moves_closeAll net)

theorem moves_cutFlushes : Moves 0 c (c.cutFlushes net) :=
  Moves.then (show Moves 0 c { c with measureLatencies := false } from Moves.idle rfl)
    (moves_foldl (fun _ id => moves_close id _ net) _)

theorem moves_terminate : Moves 0 c (c.terminate net) := by
  unfold terminate
  dsimp only
  split
  · exact (moves_finish net).then (Moves.idle rfl)
  · exact (moves_finish net).then (moves_cutFlushes net)

theorem moves_finishWait : Moves 0 c (c.finishWait net) := by
  have hclose : Moves 0 c ({ c with drainTimer := false, waitingFor := .nothing }.closeAll net) :=
    Moves.then (show Moves 0 c { c with drainTimer := false, waitingFor := .nothing } from
      Moves.idle rfl) (moves_closeAll net)
  unfold finishWait
  dsimp only
  split
  · refine Moves.then (hclose.then ?_) (moves_cutFlushes net)
    exact Moves.idle rfl
  · exact hclose

end

/-! ## Starting messages -/

/-- A call that comes with its callback, before anything is done about it. -/
def called (c : TcpBenchmarkClientImpl) : TcpBenchmarkClientImpl :=
  { c with
    nextSlot := (c.nextSlot + 1) % c.config.connections.toNat
    callbacks := c.callbacks.give }

theorem step_drop (hk : k = .deferred ∨ k = .unavailable) :
    Ledger.Step c.ledger (c.called.drop k c.callbacks.calls).ledger := by
  refine (Ledger.Step.refuse (l := c.ledger)).congr ?_
  have hdue : (c.callbacks.give.post c.callbacks.calls true false).due
      = c.callbacks.calls ::ₘ c.callbacks.due := Callbacks.due_post _ _ _ _
  rcases hk with rfl | rfl
  · ext1
    case refused =>
      show c.counters .deferred + c.counters .unavailable + 1
        = c.counters .deferred + 1 + c.counters .unavailable
      omega
    case posted => exact hdue.symm
    all_goals rfl
  · ext1
    case posted => exact hdue.symm
    all_goals rfl

/-- What a call has written on a link. -/
def written (c : TcpBenchmarkClientImpl) (id now : Nat) : TcpBenchmarkClientImpl :=
  if c.config.expectEcho then
    (c.called.updateLink id (fun l => { l with
      inflight := l.inflight ++ [{ sentAt := now, completionCallback := c.callbacks.calls }]
      })).inc .messagesSent
  else
    { c.called with
      callbacks := c.callbacks.give.post c.callbacks.calls true true }.inc .messagesSent

theorem step_written (hid : id < c.links.length) (now : Nat) :
    Ledger.Step c.ledger (c.written id now).ledger := by
  unfold written
  split
  · rename_i he
    refine (Ledger.Step.send (l := c.ledger)).congr ?_
    ext1
    case unawaited =>
      show (if c.config.expectEcho then 0 else _) = if c.config.expectEcho then 0 else _
      rw [if_pos he, if_pos he]
    case pending =>
      refine (Ledger.held_modify_cons Link.pending
        (d := { slot := 0, state := .closed }) hid ?_).symm
      unfold Link.pending
      rw [List.map_append, ← Multiset.coe_add, Multiset.add_comm]
      rfl
    all_goals rfl
  · rename_i he
    refine (Ledger.Step.sendUnawaited (l := c.ledger)).congr ?_
    ext1
    case unawaited =>
      show (if c.config.expectEcho then 0 else _) + 1 = if c.config.expectEcho then 0 else _
      rw [if_neg he, if_neg he]
      rfl
    case posted => exact (Callbacks.due_post _ _ _ _).symm
    all_goals rfl

/-! ## What every call keeps -/

/-- The books of a client between calls. -/
structure Kept (c : TcpBenchmarkClientImpl) : Prop where
  balanced : c.ledger.Balanced
  bounded : ∀ id, (c.link id).inflight.length ≤ c.config.maxInflightPerConnection.toNat
  empty : ∀ id, (c.link id).state = .closed → (c.link id).inflight = []
  fresh : c.Fresh
  excess : c.excess = 0

theorem Kept.moves (h : Kept c) (hm : Moves 0 c c') : Kept c' where
  balanced := hm.ledger.balanced h.balanced
  bounded := fun id => by
    rw [hm.config]
    exact (hm.inflight id).length_le.trans (h.bounded id)
  empty := fun id hclosed => by
    by_cases hbefore : (c.link id).state = .closed
    · have hsuffix := hm.inflight id
      rw [h.empty id hbefore] at hsuffix
      exact List.suffix_nil.mp hsuffix
    · exact hm.closed id hclosed hbefore
  fresh := hm.fresh h.fresh
  excess := by rw [hm.excess h.fresh, h.excess, add_zero]

theorem Kept.drop (h : Kept c) (hk : k = .deferred ∨ k = .unavailable) :
    Kept (c.called.drop k c.callbacks.calls) where
  balanced := (step_drop hk).balanced h.balanced
  bounded := h.bounded
  empty := h.empty
  fresh := h.fresh
  excess := by
    rw [← h.excess]
    rcases hk with rfl | rfl <;> rfl

theorem Kept.written (h : Kept c) (hopened : (c.link id).state = .opened)
    (hroom : (c.link id).inflight.length < c.config.maxInflightPerConnection.toNat) (now : Nat) :
    Kept (c.written id now) := by
  have hid : id < c.links.length := lt_length_of_state (by rw [hopened]; exact nofun)
  have hbalanced := (step_written hid now).balanced h.balanced
  unfold TcpBenchmarkClientImpl.written at hbalanced ⊢
  split
  · rename_i he
    rw [if_pos he] at hbalanced
    refine ⟨hbalanced, ?_, ?_, Fresh.updateLink h.fresh (fun _ => rfl), h.excess⟩
    · refine link_updateLink (c := c.called)
        (P := fun _ l => l.inflight.length ≤ c.config.maxInflightPerConnection.toNat) ?_ h.bounded
      rw [List.length_append]
      exact hroom
    · refine link_updateLink (c := c.called)
        (P := fun _ l => l.state = .closed → l.inflight = []) (fun hclosed => ?_) h.empty
      have : (c.link id).state = .closed := hclosed
      rw [hopened] at this
      cases this
  · rename_i he
    rw [if_neg he] at hbalanced
    exact ⟨hbalanced, h.bounded, h.empty, h.fresh, h.excess⟩

/-- What follows a message that is written concerns messages no more. -/
theorem moves_send (i id : Nat) (net : Network) :
    Moves 0 (c.written id net.now) (c.called.send i id c.callbacks.calls net) := by
  have hwrite : Moves 0 (c.written id net.now) (c.called.write id c.callbacks.calls net) := by
    have hblocks : ∀ d : TcpBenchmarkClientImpl,
        Moves 0 d ((if net.blocks then d.onWriteBlocked id true else d).updateLink id
          (fun l => { l with sent := l.sent + 1 })) := by
      intro d
      refine Moves.then ?_ (moves_updateLink (fun _ => ⟨rfl, rfl⟩) (fun h => h))
      split
      · exact moves_onWriteBlocked id true
      · exact Moves.refl d
    unfold TcpBenchmarkClientImpl.written write
    by_cases he : c.config.expectEcho = true
    · rw [if_pos he, if_pos (show c.called.config.expectEcho = true from he)]
      exact hblocks _
    · rw [if_neg he, if_neg (show ¬ c.called.config.expectEcho = true from he)]
      exact hblocks _
  unfold send
  dsimp only
  split
  · exact hwrite.then (moves_connectNext i net)
  · exact hwrite

theorem Kept.tryStartRequest (h : Kept c) (net : Network) : Kept (c.tryStartRequest net) := by
  unfold TcpBenchmarkClientImpl.tryStartRequest
  dsimp only
  split
  · exact h.drop (Or.inr rfl)
  · rename_i id hactive
    split
    · exact h.drop (Or.inr rfl)
    · rename_i hopened
      split
      · exact h.drop (Or.inl rfl)
      · rename_i hroom
        refine (h.written (Decidable.not_not.mp hopened) ?_ net.now).moves (moves_send _ id net)
        simp only [Bool.or_eq_true, decide_eq_true_eq, not_or, Nat.not_le] at hroom
        exact hroom.2

theorem Kept.posted (h : Kept c) {b : Callbacks} (hb : c.callbacks.runPosted = some b) :
    Kept { c with callbacks := b } := by
  obtain ⟨hcalls, id, hdue, hdone⟩ := Callbacks.runPosted_some hb
  have hstep : Ledger.Step c.ledger { c with callbacks := b }.ledger := by
    refine (Ledger.Step.run (l := c.ledger) hdue).congr ?_
    ext1
    case offered => exact hcalls.symm
    case invoked => exact hdone.symm
    all_goals rfl
  exact ⟨hstep.balanced h.balanced, h.bounded, h.empty, h.fresh, h.excess⟩

/-- The calls there can be, and what they lead to. -/
inductive Takes (c : TcpBenchmarkClientImpl) : Event → TcpBenchmarkClientImpl → Prop where
  | measure (b : Bool) : Takes c (.setShouldMeasureLatencies b) { c with measureLatencies := b }
  | prepare {message : List UInt8} (nets : Nat → Network) :
      c.prepared = false → c.finished = false → ¬ (c.config.expectEcho = true ∧ message = []) →
      Takes c (.prepare message nets)
        (if 0 < ({ c with message := message, prepared := true }.openAll nets).pendingOpens then
          { { c with message := message, prepared := true }.openAll nets with
            waitingFor := .opens
            exited := false }
        else { c with message := message, prepared := true }.openAll nets)
  | prepareWait : c.waitingFor = .opens → c.exited = true →
      Takes c .prepareWait { c with waitingFor := .nothing }
  | tryStartRequest (net : Network) : Takes c (.tryStartRequest net) (c.tryStartRequest net)
  | onEvent {id : Nat} (event : ConnectionEvent) (net : Network) :
      id < c.links.length → Takes c (.onEvent id event net) (c.onEvent id event net)
  | onData {id : Nat} (data : List UInt8) (net : Network) :
      id < c.links.length → Takes c (.onData id data net) (c.onData id data net)
  | onWriteBlocked {id : Nat} (blocked : Bool) :
      id < c.links.length → Takes c (.onWriteBlocked id blocked) (c.onWriteBlocked id blocked)
  | timer {id : Nat} (net : Network) :
      (c.link id).timer = true →
      Takes c (.timer id net)
        ((c.updateLink id (fun l => { l with timer := false })).onTimer id net)
  | retryTimer {i : Nat} {t : RetryTimer} (net : Network) :
      (c.slots i).retryTimer = some t → t.armedAt + t.delay * nsPerMs ≤ net.now →
      Takes c (.retryTimer i net) ((c.updateSlot i (fun s => { s with
        retryTimer := none
        lastRetry := some net.now })).connectNext i net)
  | posted {b : Callbacks} : c.callbacks.runPosted = some b →
      Takes c .posted { c with callbacks := b }
  | finish (net : Network) : c.waitingFor = .nothing → Takes c (.finish net) (c.finish net)
  | drainTimer : c.drainTimer = true →
      Takes c .drainTimer { c with drainTimer := false, exited := true }
  | finishWait (net : Network) :
      c.waitingFor = .echoes → c.exited = true → Takes c (.finishWait net) (c.finishWait net)
  | terminate (net : Network) : c.waitingFor = .nothing → Takes c (.terminate net) (c.terminate net)

theorem takes {e : Event} (h : c.step e = some c') : c.Takes e c' := by
  revert h
  fun_cases step c e <;> intro h
  case case3 message nets hguard =>
    simp only [Bool.or_eq_true, not_or, Bool.not_eq_true] at hguard
    have htakes := @Takes.prepare c message nets hguard.1 hguard.2
    revert h
    fun_cases prepare c message nets <;> intro h
    case case1 => cases h
    case case2 hecho d hpending =>
      have htakes := htakes hecho
      rwa [if_pos hpending, Option.some.inj h] at htakes
    case case3 hecho d hpending =>
      have htakes := htakes hecho
      rw [if_neg hpending] at htakes
      exact Option.some.inj h ▸ htakes
  case case4 hg =>
    cases h
    exact .prepareWait hg.1 hg.2
  case case24 net hg =>
    cases h
    exact .finishWait net hg.1 hg.2
  all_goals cases h
  -- every other call is the one of its name, under its guard
  all_goals constructor <;> assumption

theorem Kept.takes (h : Kept c) {e : Event} (hs : c.Takes e c') : Kept c' := by
  cases hs with
  | measure b | prepareWait | drainTimer => exact h.moves (Moves.idle rfl)
  | @prepare message nets _ _ _ =>
    have hopen : Moves 0 c ({ c with message := message, prepared := true }.openAll nets) :=
      Moves.then
        (show Moves 0 c { c with message := message, prepared := true } from Moves.idle rfl)
        (moves_openAll nets)
    split
    · exact h.moves (hopen.then (Moves.idle rfl))
    · exact h.moves hopen
  | tryStartRequest net => exact h.tryStartRequest net
  | onEvent event net hid => exact h.moves (moves_onEvent _ event net)
  | onData data net hid => exact h.moves (moves_onData _ data net)
  | onWriteBlocked blocked hid => exact h.moves (moves_onWriteBlocked _ blocked)
  | timer net ht =>
    refine h.moves (Moves.then ?_ (moves_onTimer _ net))
    exact moves_updateLink (fun _ => ⟨rfl, rfl⟩) (fun h => h)
  | retryTimer net ht hdue =>
    refine h.moves (Moves.then ?_ (moves_connectNext _ net))
    exact moves_updateSlot _ (fun _ _ hi => hi)
  | posted hb => exact h.posted hb
  | finish net hw => exact h.moves (moves_finish net)
  | finishWait net hw hx => exact h.moves (moves_finishWait net)
  | terminate net hw => exact h.moves (moves_terminate net)

theorem kept_init (config : Config) : Kept { config := config } where
  balanced := by
    have : ({ config := config } : TcpBenchmarkClientImpl).ledger = {} := by
      unfold ledger
      ext1
      case unawaited => exact ite_self 0
      all_goals rfl
    rw [this]
    exact Ledger.balanced_empty
  bounded := fun _ => Nat.zero_le _
  empty := fun _ _ => rfl
  fresh := nofun
  excess := rfl

theorem kept_run {config : Config} {es : List Event} (h : Reaches config es c) : Kept c :=
  h.invariant (kept_init config) (fun _ _ _ ha hs => ha.takes (takes hs))

end Sortie.Engine.TcpBenchmarkClientImpl
