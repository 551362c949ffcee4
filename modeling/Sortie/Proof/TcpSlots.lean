import Sortie.Proof.TcpMessages
import Sortie.Proof.TcpPool

/-!
# The slots of the raw TCP client

Every handler of the client is, for its pool of slots, one of a few operations, or
nothing. So every handler leaves links where they belong and live slots live, and it
looks after the wait for the first connects.
-/

namespace Sortie.Engine

namespace TcpBenchmarkClientImpl

variable {c c' c'' : TcpBenchmarkClientImpl} {id : Nat}

/-! ## The pool of a client -/

def Link.place (l : Link) : TcpPool.Link :=
  { slot := l.slot, state := l.state, initial := l.initial, pending := l.initialPending }

def Slot.place (s : Slot) : TcpPool.Slot :=
  { active := s.active, standby := s.standby, retiring := s.retiring, retry := s.retryTimer.isSome }

def pool (c : TcpBenchmarkClientImpl) : TcpPool where
  connections := c.config.connections.toNat
  slots i := (c.slots i).place
  links := c.links.map Link.place
  pendingOpens := c.pendingOpens
  finished := c.finished
  placements := c.placements

theorem link_pool (id : Nat) : c.pool.link id = (c.link id).place :=
  List.getD_map c.links { slot := 0, state := .closed } Link.place

theorem state_pool (id : Nat) : (c.pool.link id).state = (c.link id).state :=
  congrArg TcpPool.Link.state (link_pool id)

theorem slot_pool (id : Nat) : (c.pool.link id).slot = (c.link id).slot :=
  congrArg TcpPool.Link.slot (link_pool id)

/-- What the pool does not see. -/
theorem pool_eq (hconfig : c'.config = c.config)
    (hslots : ∀ i, (c'.slots i).place = (c.slots i).place)
    (hlinks : c'.links.map Link.place = c.links.map Link.place)
    (hopens : c'.pendingOpens = c.pendingOpens) (hfinished : c'.finished = c.finished)
    (hplacements : c'.placements = c.placements) : c'.pool = c.pool := by
  unfold pool
  rw [hconfig, hlinks, hopens, hfinished, hplacements, funext hslots]

theorem map_place_updateLink (id : Nat) {f : Link → Link} {g : TcpPool.Link → TcpPool.Link}
    (h : ∀ l, (f l).place = g l.place) (links : List Link) :
    (links.modify id f).map Link.place = (links.map Link.place).modify id g := by
  induction links generalizing id with
  | nil => rw [List.modify_nil, List.map_nil, List.modify_nil]
  | cons l links ih =>
    cases id with
    | zero => rw [List.modify_zero_cons, List.map_cons, List.map_cons, List.modify_zero_cons, h]
    | succ id => rw [List.modify_succ_cons, List.map_cons, List.map_cons, List.modify_succ_cons, ih]

theorem pool_updateLink (id : Nat) {f : Link → Link} (h : ∀ l, (f l).place = l.place) :
    (c.updateLink id f).pool = c.pool := by
  refine pool_eq rfl (fun _ => rfl) ?_ rfl rfl rfl
  refine (map_place_updateLink id (g := fun l => l) h c.links).trans ?_
  exact List.modify_id _ _

theorem pool_updateSlot (i : Nat) {f : Slot → Slot} {g : TcpPool.Slot → TcpPool.Slot}
    (h : (f (c.slots i)).place = g (c.slots i).place) :
    (c.updateSlot i f).pool = c.pool.updateSlot i g := by
  unfold pool TcpPool.updateSlot
  refine congrArg (fun slots => ({ c.pool with slots := slots } : TcpPool)) (funext fun j => ?_)
  unfold updateSlot
  dsimp only
  split
  · rename_i hj
    rw [hj, h]
  · rfl

theorem pool_updateLink_state (id : Nat) {f : Link → Link} {s : State}
    (h : ∀ l, (f l).place = { l.place with state := s }) :
    (c.updateLink id f).pool = c.pool.setState id s :=
  congrArg (fun links => ({ c.pool with links := links } : TcpPool))
    (map_place_updateLink id h c.links)

theorem pool_scheduleRetry (i now : Nat) : (c.scheduleRetry i now).pool = c.pool.arm i := by
  unfold scheduleRetry TcpPool.arm
  by_cases hfinished : c.finished = true
  · rw [hfinished, Bool.true_or, if_pos rfl, if_pos (show c.pool.finished = true from hfinished)]
  · rw [Bool.not_eq_true] at hfinished
    rw [hfinished, Bool.false_or, if_neg (show ¬ c.pool.finished = true by
      rw [show c.pool.finished = c.finished from rfl, hfinished]; exact Bool.false_ne_true)]
    split
    · -- it is armed already
      rename_i hsome
      refine (TcpPool.updateSlot_of_eq ?_).symm
      exact congrArg (fun b => ({ c.pool.slots i with retry := b } : TcpPool.Slot)) hsome.symm
    · exact pool_updateSlot i rfl

theorem modify_congr {α : Type*} {f g : α → α} {d : α} (l : List α) (i : Nat)
    (h : f (l.getD i d) = g (l.getD i d)) : l.modify i f = l.modify i g := by
  induction l generalizing i with
  | nil => rw [List.modify_nil, List.modify_nil]
  | cons a l ih =>
    cases i with
    | zero =>
      rw [List.getD_cons_zero] at h
      rw [List.modify_zero_cons, List.modify_zero_cons, h]
    | succ i => rw [List.modify_succ_cons, List.modify_succ_cons, ih i h]

/-- The first attempt of a link that moves on is resolved. -/
theorem pool_settle (id : Nat) {f : Link → Link} {s : State}
    (h : ∀ l, (f l).place = { l.place with state := s }) :
    ((c.updateLink id f).initialAttemptDone id).pool = c.pool.settle id s := by
  have hmoved := pool_updateLink_state (c := c) id h
  have hpending : ((c.updateLink id f).link id).initialPending = (c.link id).initialPending := by
    refine link_updateLink (P := fun j l => j = id → l.initialPending = (c.link id).initialPending)
      (fun _ => ?_) (fun j hj => by rw [hj]) id rfl
    exact congrArg TcpPool.Link.pending (h (c.link id))
  have hlink : (c.pool.link id).pending = (c.link id).initialPending :=
    congrArg TcpPool.Link.pending (link_pool id)
  unfold initialAttemptDone TcpPool.settle
  rw [hpending, hlink]
  split
  · -- it is marked as resolved after it has moved
    have hboth : (((c.updateLink id f).updateLink id
        (fun l => { l with initialPending := false })).links.map Link.place)
        = c.pool.links.modify id (fun l => { l with state := s, pending := false }) := by
      refine (map_place_updateLink id (g := fun l => { l with pending := false })
        (fun _ => rfl) _).trans ?_
      rw [show (c.updateLink id f).links.map Link.place = _ from
        map_place_updateLink id (g := fun l => { l with state := s }) h c.links,
        List.modify_modify_eq]
      rfl
    exact congrArg (fun links => ({ c.pool with
      links := links, pendingOpens := c.pendingOpens - 1 } : TcpPool)) hboth
  · rename_i hnot
    rw [hmoved]
    refine congrArg (fun links => ({ c.pool with links := links } : TcpPool))
      (modify_congr (d := {}) _ _ ?_)
    rw [Bool.not_eq_true, ← hlink] at hnot
    exact congrArg (fun b => ({ c.pool.link id with state := s, pending := b } : TcpPool.Link)) hnot

/-! ## The handlers, as operations on the pool -/

theorem pool_maybeExitWaitLoop : c.maybeExitWaitLoop.pool = c.pool := by
  unfold maybeExitWaitLoop
  split
  · split <;> rfl
  · split <;> rfl
  · rfl

theorem pool_countClose (previous : State) : (c.countClose previous).pool = c.pool := by
  cases previous <;> rfl

section

variable (id : Nat)

theorem pool_completeFront (message : InflightMessage) (success : Bool) :
    (c.completeFront id message success).pool = c.pool :=
  pool_updateLink (c := c) (f := fun l => { l with inflight := l.inflight.tail }) id (fun _ => rfl)

theorem pool_completeInflight (success : Bool) :
    (c.completeInflight id success).pool = c.pool := by
  unfold completeInflight
  generalize (c.link id).inflight = messages
  induction messages generalizing c with
  | nil => rfl
  | cons message messages ih =>
    rw [List.foldl_cons, ih, pool_completeFront]
    split <;> rfl

/-- A link that is taken out of its slot, and where it was. -/
theorem pool_release : (c.release id).2.pool = c.pool.release id := by
  unfold release TcpPool.release
  rw [slot_pool]
  dsimp only
  split
  · rename_i ha
    exact pool_updateSlot _ (if_pos ha).symm
  · rename_i ha
    split
    · rename_i hs
      exact pool_updateSlot _ ((if_neg ha).trans (if_pos hs)).symm
    · rename_i hs
      have hwithout : (c.slots (c.link id).slot).place.without id = _ :=
        (if_neg ha).trans (if_neg hs)
      split
      · exact pool_updateSlot _ hwithout.symm
      · -- it is nowhere, so there is nothing to take out
        rename_i hr
        refine (TcpPool.updateSlot_of_eq (hwithout.trans ?_)).symm
        exact congrArg
          (fun retiring => { (c.slots (c.link id).slot).place with retiring := retiring })
          (List.erase_of_not_mem hr)

theorem role_release :
    (c.release id).1 = .active ∨ (c.release id).1 = .standby ↔ c.pool.InUse id := by
  have hactive : c.pool.InUse id ↔ (c.slots (c.link id).slot).active = some id
      ∨ (c.slots (c.link id).slot).standby = some id := by
    unfold TcpPool.InUse
    rw [slot_pool]
    rfl
  rw [hactive]
  unfold release
  dsimp only
  split
  · rename_i ha
    exact ⟨fun _ => Or.inl ha, fun _ => Or.inl rfl⟩
  · rename_i ha
    split
    · rename_i hs
      exact ⟨fun _ => Or.inr hs, fun _ => Or.inr rfl⟩
    · rename_i hs
      split
      · exact iff_of_false (not_or.mpr ⟨nofun, nofun⟩) (not_or.mpr ⟨ha, hs⟩)
      · exact iff_of_false (not_or.mpr ⟨nofun, nofun⟩) (not_or.mpr ⟨ha, hs⟩)

/-- A link is closed and everything it has in flight is lost. -/
theorem pool_shut (previous : State) :
    ((((c.updateLink id Link.shut).initialAttemptDone id).countClose previous).completeInflight id
      false).pool = c.pool.settle id .closed := by
  rw [pool_completeInflight, pool_countClose]
  exact pool_settle id (fun _ => rfl)

theorem pool_onClose (net : Network) :
    (c.onClose id net).pool
      = if (c.link id).state ≠ .closed ∧ c.pool.InUse id then
          (c.pool.drop id).arm (c.pool.link id).slot
        else c.pool.drop id := by
  unfold onClose
  dsimp only
  have hshut := pool_shut (c := c) id (c.link id).state
  generalize (((c.updateLink id Link.shut).initialAttemptDone id).countClose
    (c.link id).state).completeInflight id false = d at hshut ⊢
  have hreleased : (d.release id).2.pool = c.pool.drop id := by
    rw [pool_release, hshut]
    rfl
  have hslot : ((d.release id).2.link id).slot = (c.pool.link id).slot := by
    rw [← slot_pool, hreleased]
    exact TcpPool.slot_drop_self id
  have hrole : (d.release id).1 = .active ∨ (d.release id).1 = .standby ↔ c.pool.InUse id := by
    rw [role_release, hshut]
    exact TcpPool.inUse_settle_closed id
  rw [pool_maybeExitWaitLoop]
  unfold retryAfterClose
  rw [hslot]
  by_cases hlost : (c.link id).state ≠ .closed ∧ c.pool.InUse id
  · rw [if_pos ⟨hlost.1, hrole.mpr hlost.2⟩, if_pos hlost, pool_scheduleRetry, hreleased]
  · rw [if_neg (fun h => hlost ⟨h.1, hrole.mp h.2⟩), if_neg hlost, hreleased]

end

/-! ## The wait for the first connects -/

/-- While `prepare` waits, its dispatcher was told to exit only if no first attempt is left. -/
def Patient (c : TcpBenchmarkClientImpl) : Prop :=
  c.waitingFor = .opens → c.exited = true → c.pendingOpens = 0

/-- While `prepare` waits, its dispatcher was told to exit if no first attempt is left. -/
def Woken (c : TcpBenchmarkClientImpl) : Prop :=
  c.waitingFor = .opens → c.pendingOpens = 0 → c.exited = true

/-- What a client waits for, in which part of its run. -/
def awaits (c : TcpBenchmarkClientImpl) := (c.waitingFor, c.prepared, c.drainTimer)

/-- What the first part of a handler does to a wait. -/
structure Heeds (c c' : TcpBenchmarkClientImpl) : Prop where
  awaits : c.awaits = c'.awaits
  patient : c.Patient → c'.Patient

/-- What a handler does to a wait. -/
structure Minds (c c' : TcpBenchmarkClientImpl) : Prop extends Heeds c c' where
  woken : c.Woken → c'.Woken

theorem Heeds.waitingFor (h : Heeds c c') : c'.waitingFor = c.waitingFor :=
  congrArg Prod.fst h.awaits.symm

theorem Heeds.prepared (h : Heeds c c') : c'.prepared = c.prepared :=
  congrArg (fun w => w.2.1) h.awaits.symm

theorem Heeds.drainTimer (h : Heeds c c') : c'.drainTimer = c.drainTimer :=
  congrArg (fun w => w.2.2) h.awaits.symm

theorem Heeds.trans (h : Heeds c c') (h' : Heeds c' c'') : Heeds c c'' :=
  ⟨h.awaits.trans h'.awaits, fun hp => h'.patient (h.patient hp)⟩

theorem Minds.refl (c : TcpBenchmarkClientImpl) : Minds c c := ⟨⟨rfl, fun h => h⟩, fun h => h⟩

theorem Minds.trans (h : Minds c c') (h' : Minds c' c'') : Minds c c'' :=
  ⟨h.toHeeds.trans h'.toHeeds, fun hw => h'.woken (h.woken hw)⟩

/-- The parts of handlers that tell no dispatcher to exit. -/
def Calm (c c' : TcpBenchmarkClientImpl) : Prop := (c.awaits, c.exited) = (c'.awaits, c'.exited)

theorem Calm.trans (h : Calm c c') (h' : Calm c' c'') : Calm c c'' := Eq.trans h h'

theorem calm_scheduleRetry (i now : Nat) : Calm c (c.scheduleRetry i now) := by
  unfold scheduleRetry
  split <;> exact rfl

theorem calm_initialAttemptDone (id : Nat) : Calm c (c.initialAttemptDone id) := by
  unfold initialAttemptDone
  split <;> exact rfl

theorem calm_completeInflight (id : Nat) (success : Bool) :
    Calm c (c.completeInflight id success) := by
  unfold completeInflight
  generalize (c.link id).inflight = messages
  induction messages generalizing c with
  | nil => exact rfl
  | cons message messages ih =>
    rw [List.foldl_cons]
    refine Calm.trans ?_ ih
    cases success <;> exact rfl

theorem calm_shut (id : Nat) (previous : State) :
    Calm c ((((c.updateLink id Link.shut).initialAttemptDone id).countClose previous)
      |>.completeInflight id false) := by
  have hclosed : Calm c (c.updateLink id Link.shut) := rfl
  refine Calm.trans ((hclosed.trans (calm_initialAttemptDone id)).trans ?_)
    (calm_completeInflight id false)
  cases previous <;> exact rfl

theorem calm_release (id : Nat) : Calm c (c.release id).2 := by
  unfold release
  dsimp only
  split
  · exact rfl
  · split
    · exact rfl
    · split <;> exact rfl

theorem calm_retryAfterClose (previous : State) (role : Role) (i now : Nat) :
    Calm c (c.retryAfterClose previous role i now) := by
  unfold retryAfterClose
  split
  · exact calm_scheduleRetry i now
  · exact rfl

theorem Calm.minds (h : Calm c c') (hopens : c'.pendingOpens = c.pendingOpens) : Minds c c' := by
  obtain ⟨hawaits, hexited⟩ := Prod.mk.inj h
  have hwait : c.waitingFor = c'.waitingFor := congrArg Prod.fst hawaits
  refine ⟨⟨hawaits, fun hp => ?_⟩, fun hw => ?_⟩
  · unfold Patient
    rw [← hwait, ← hexited, hopens]
    exact hp
  · unfold Woken
    rw [← hwait, ← hexited, hopens]
    exact hw

/-- First attempts are counted down, and there are never less than none. -/
theorem Calm.heeds (h : Calm c c') (hplaced : c'.pool.Placed)
    (hopens : c'.pendingOpens ≤ c.pendingOpens) : Heeds c c' := by
  obtain ⟨hawaits, hexited⟩ := Prod.mk.inj h
  refine ⟨hawaits, fun hp hw he => ?_⟩
  have hnone := hp ((congrArg Prod.fst hawaits).trans hw) (hexited.trans he)
  have hcount : c'.pendingOpens = _ := hplaced.count
  omega

theorem awaits_maybeExitWaitLoop : c.maybeExitWaitLoop.awaits = c.awaits := by
  unfold maybeExitWaitLoop
  split
  · split <;> rfl
  · split <;> rfl
  · rfl

theorem exited_maybeExitWaitLoop (h : c.waitingFor = .opens) :
    c.maybeExitWaitLoop.exited = true ↔ c.exited = true ∨ c.pendingOpens = 0 := by
  unfold maybeExitWaitLoop
  rw [h]
  dsimp only
  split
  · rename_i hopens
    exact ⟨fun _ => Or.inr hopens, fun _ => rfl⟩
  · rename_i hopens
    rw [or_iff_left hopens]

/-- A handler looks after the wait at its end. -/
theorem Heeds.exit (h : Heeds c c') : Minds c c'.maybeExitWaitLoop := by
  have hwait : c'.maybeExitWaitLoop.waitingFor = c'.waitingFor :=
    congrArg Prod.fst awaits_maybeExitWaitLoop
  have hsame : c'.maybeExitWaitLoop.pendingOpens = c'.pendingOpens :=
    congrArg TcpPool.pendingOpens pool_maybeExitWaitLoop
  refine ⟨⟨h.awaits.trans awaits_maybeExitWaitLoop.symm, fun hp hw he => ?_⟩,
    fun _ hw hopens => ?_⟩
  · rw [hwait] at hw
    rw [hsame]
    rcases (exited_maybeExitWaitLoop hw).mp he with hexited | hopens
    · exact h.patient hp hw hexited
    · exact hopens
  · rw [hwait] at hw
    rw [hsame] at hopens
    exact (exited_maybeExitWaitLoop hw).mpr (Or.inr hopens)

/-! ## Closing -/

/-- What a handler makes of the client: its slots stay live, and its waits are looked after. -/
structure Tends (c c' : TcpBenchmarkClientImpl) : Prop where
  pool : c.pool.Follows c'.pool
  waits : Minds c c'

theorem Tends.trans (h : Tends c c') (h' : Tends c' c'') : Tends c c'' :=
  ⟨h.pool.trans h'.pool, h.waits.trans h'.waits⟩

theorem Tends.placed (h : Tends c c') : c'.pool.Placed := h.pool.placed

/-- A part of a handler that has nothing to do with slots. -/
theorem tends_of_pool (h : c.pool.Placed) (hpool : c'.pool = c.pool) (hcalm : Calm c c') :
    Tends c c' := by
  refine ⟨?_, hcalm.minds (congrArg TcpPool.pendingOpens hpool)⟩
  rw [hpool]
  exact h.follows

theorem tends_refl (h : c.pool.Placed) : Tends c c := ⟨h.follows, Minds.refl c⟩

theorem tends_updateLink (h : c.pool.Placed) (id : Nat) {f : Link → Link}
    (hf : ∀ l, (f l).place = l.place) : Tends c (c.updateLink id f) :=
  tends_of_pool h (pool_updateLink id hf) rfl

theorem tends_of_heeds (hpool : c.pool.Follows c'.pool) (h : Heeds c c') :
    Tends c c'.maybeExitWaitLoop := by
  refine ⟨?_, h.exit⟩
  rw [pool_maybeExitWaitLoop]
  exact hpool

theorem Tends.exit (h : Tends c c') : Tends c c'.maybeExitWaitLoop :=
  tends_of_heeds h.pool h.waits.toHeeds

theorem tends_exit (hpool : c.pool.Follows c'.pool) (hcalm : Calm c c') :
    Tends c c'.maybeExitWaitLoop :=
  tends_of_heeds hpool (hcalm.heeds hpool.placed hpool.opens)

theorem exit_onClose (id : Nat) (net : Network) :
    ∃ d, c.onClose id net = d.maybeExitWaitLoop ∧ Calm c d := by
  exact ⟨_, rfl, ((calm_shut id (c.link id).state).trans (calm_release id)).trans
    (calm_retryAfterClose _ _ _ _)⟩

section

variable (h : c.pool.Placed)
include h

/-- A link in use is connecting or open, unless it was closed by `finish`. -/
theorem state_of_inUse (hid : c.pool.InUse id) :
    (c.link id).state = .connecting ∨ (c.link id).state = .opened
      ∨ (c.link id).state = .closed ∧ c.finished = true := by
  rw [← state_pool]
  rcases hid with ha | hs
  · exact (h.fits _).active _ ha
  · exact Or.inl ((h.fits _).standby _ hs)

theorem finished_of_inUse (hclosed : (c.link id).state = .closed) (hid : c.pool.InUse id) :
    c.finished = true := by
  have hstate := state_of_inUse h hid
  rw [hclosed] at hstate
  exact ((hstate.resolve_left nofun).resolve_left nofun).2

theorem not_inUse_of_retiring (hretiring : (c.link id).state = .retiring) :
    ¬ c.pool.InUse id := by
  intro hid
  have hstate := state_of_inUse h hid
  rw [hretiring] at hstate
  exact nomatch (hstate.resolve_left nofun).resolve_left nofun

/-- A link that is connecting or open is in use. -/
theorem inUse_of_state (hstate : (c.link id).state = .connecting ∨ (c.link id).state = .opened) :
    c.pool.InUse id := by
  rw [← state_pool] at hstate
  have howned := h.owned id (fun hclosed => by simp [hclosed] at hstate)
  rcases TcpPool.Slot.mem_links.mp howned with ha | hs | hr
  · exact Or.inl ha
  · exact Or.inr hs
  · rcases (h.fits _).retiring _ hr with hr | hr <;> simp [hr] at hstate

theorem tends_onClose (id : Nat) (net : Network) :
    Tends c (c.onClose id net) := by
  have hpool : c.pool.Follows (c.onClose id net).pool := by
    rw [pool_onClose]
    split
    · rename_i hlost
      refine h.follows_drop_arm ?_
      exact hlost.2.elim TcpPool.Slot.mem_active TcpPool.Slot.mem_standby
    · rename_i hnot
      refine h.follows_drop ?_
      by_cases hid : c.pool.InUse id
      · exact Or.inl (finished_of_inUse h (Classical.not_not.mp fun hs => hnot ⟨hs, hid⟩) hid)
      · exact Or.inr (not_or.mp hid)
  obtain ⟨d, hd, hcalm⟩ := exit_onClose (c := c) id net
  rw [hd, pool_maybeExitWaitLoop] at hpool
  rw [hd]
  exact tends_exit hpool hcalm

end

/-- A connection that is closed raises its event, now or when its writes are flushed. -/
theorem close_cases (id : Nat) (type : ConnectionCloseType) (net : Network)
    (h : (c.link id).state = .closed) :
    (∃ d, c.close id type net = d.maybeExitWaitLoop ∧ Calm c d ∧ d.pool = c.pool.drop id)
      ∨ type = .flushWrite ∧ c.close id type net = c := by
  have hraised :
      ∃ d, c.onClose id net = d.maybeExitWaitLoop ∧ Calm c d ∧ d.pool = c.pool.drop id := by
    obtain ⟨d, hd, hcalm⟩ := exit_onClose (c := c) id net
    refine ⟨d, hd, hcalm, ?_⟩
    rw [← pool_maybeExitWaitLoop, ← hd, pool_onClose, if_neg (fun hc => hc.1 h)]
  unfold close
  split
  · exact Or.inl hraised
  · split
    · exact Or.inl hraised
    · exact Or.inr ⟨rfl, rfl⟩

/-- A link that the client closes is taken out of its slot, now or when its writes are flushed. -/
theorem closeLink_cases (type : ConnectionCloseType) (net : Network)
    (h : (c.link id).state ≠ .closed) :
    (∃ d, c.closeLink id type net = d.maybeExitWaitLoop ∧ Calm c d ∧ d.pool = c.pool.drop id)
      ∨ type = .flushWrite ∧ Calm c (c.closeLink id type net)
        ∧ (c.closeLink id type net).pool = c.pool.settle id .closed := by
  unfold closeLink
  rw [if_neg h]
  have hshut := pool_shut (c := c) id .closed
  have hcalm := calm_shut (c := c) id .closed
  have hclosed : (((((c.updateLink id Link.shut).initialAttemptDone id).countClose
      .closed).completeInflight id false).link id).state = .closed := by
    rw [← state_pool, hshut, TcpPool.link_settle_closed, if_pos rfl]
  rcases close_cases id type net hclosed with ⟨d, hd, hcalm', hdrop⟩ | ⟨htype, hsame⟩
  · refine Or.inl ⟨d, hd, hcalm.trans hcalm', ?_⟩
    rw [hdrop, hshut, TcpPool.drop_settle_closed]
  · exact Or.inr ⟨htype, hsame.symm ▸ hcalm, hsame.symm ▸ hshut⟩

/-- Closing a link at once: whoever does it decides what follows for the slot. -/
theorem lost_closeLink (h : c.pool.Placed) (hid : (c.link id).state ≠ .closed) (net : Network) :
    (c.closeLink id .noFlush net).pool = c.pool.drop id
      ∧ Minds c (c.closeLink id .noFlush net) := by
  rcases closeLink_cases .noFlush net hid with ⟨d, hd, hcalm, hdrop⟩ | ⟨htype, -⟩
  · rw [hd, pool_maybeExitWaitLoop]
    refine ⟨hdrop, (hcalm.heeds ?_ ?_).exit⟩
    · rw [hdrop]
      exact h.drop id
    · show d.pool.pendingOpens ≤ c.pool.pendingOpens
      rw [hdrop]
      exact TcpPool.pendingOpens_settle_le id .closed
  · cases htype

/-- Closing a link that its slot does not need. -/
theorem tends_closeLink (h : c.pool.Placed) (type : ConnectionCloseType) (net : Network)
    (hid : c.finished = true ∨ (c.link id).state = .retiring)
    (htype : type = .flushWrite → (c.link id).state ≠ .connecting) :
    Tends c (c.closeLink id type net) := by
  by_cases hs : (c.link id).state = .closed
  · unfold closeLink
    rw [if_pos hs]
    exact tends_refl h
  · rcases closeLink_cases type net hs with ⟨d, hd, hcalm, hdrop⟩ | ⟨hflush, hcalm, hshut⟩
    · rw [hd]
      refine tends_exit ?_ hcalm
      rw [hdrop]
      refine h.follows_drop (hid.imp_right (fun hretiring => ?_))
      exact not_or.mp (not_inUse_of_retiring h hretiring)
    · have hnot := htype hflush
      rw [← state_pool] at hnot
      refine ⟨?_, hcalm.minds ?_⟩
      · rw [hshut]
        exact h.follows_shut (hid.imp_right (fun hretiring => (state_pool id).trans hretiring)) hnot
      · -- its first attempt was resolved long ago
        show (c.closeLink id type net).pool.pendingOpens = c.pool.pendingOpens
        rw [hshut]
        exact if_neg (fun hpending => hnot ((h.pending id).mp hpending).2)

/-! ## Connecting -/

/-- A link that was replaced retires if it is open, and may be closed at once. -/
theorem retire_cases (id : Nat) (net : Network) :
    ∃ d, Calm c d
      ∧ d.pool = (if (c.pool.link id).state = .opened then c.pool.setState id .retiring else c.pool)
      ∧ (d.pool.Placed → Tends d (c.retire id net)) := by
  unfold retire
  by_cases hopened : (c.link id).state = .opened
  · rw [if_neg (Classical.not_not.mpr hopened), if_pos ((state_pool id).trans hopened)]
    have hpool := pool_updateLink_state (c := c) (f := fun l => { l with state := .retiring }) id
      (fun _ => rfl)
    refine ⟨c.updateLink id (fun l => { l with state := .retiring }), rfl, hpool,
      fun hplaced => ?_⟩
    dsimp only
    split
    · have hretiring : ((c.updateLink id (fun l => { l with state := .retiring })).link id).state
          = .retiring := by
        rw [link_updateLink_self (lt_length_of_state (by rw [hopened]; exact nofun))]
      refine tends_closeLink hplaced _ net (Or.inr hretiring) (fun _ => ?_)
      rw [hretiring]
      exact nofun
    · exact tends_of_pool hplaced (pool_updateLink id (fun _ => rfl)) rfl
  · rw [if_pos hopened, if_neg (by rw [state_pool]; exact hopened)]
    exact ⟨c, rfl, rfl, fun hplaced => tends_refl hplaced⟩

/-- What `promote` does to the pool before the link that was replaced retires. -/
theorem pool_takeOver (i : Nat) {f : Slot → Slot} (retiring : List Nat)
    (hf : ∀ s, (f s).place = { s.place with retiring := s.retiring ++ retiring })
    (hretiring : (c.slots i).active.toList = retiring) :
    ((c.takeOver i).updateSlot i f).pool = c.pool.promote i := by
  have hplacement : (c.slots i).standby.map (fun id => (id, (c.link id).state))
      = (c.pool.slots i).standby.map (fun id => (id, (c.pool.link id).state)) :=
    congrArg (fun g => (c.slots i).standby.map g) (funext fun id => by rw [state_pool])
  unfold TcpPool.promote
  dsimp only
  rw [← hplacement]
  refine congrArg (fun slots => ({ c.pool with
    slots := slots
    placements := (c.takeOver i).placements } : TcpPool)) (funext fun j => ?_)
  unfold updateSlot takeOver updateSlot
  dsimp only
  by_cases hj : j = i
  · rw [if_pos hj, if_pos hj, if_pos hj, hf, hj, ← hretiring]
    rfl
  · rw [if_neg hj, if_neg hj, if_neg hj]
    rfl

/-- The standby that has connected takes over, and what it replaces retires. -/
theorem promote_cases {p : TcpPool} {i : Nat} (hc : c.pool = p.settle id .opened) (hp : p.Placed)
    (hs : (p.slots i).standby = some id) (net : Network) :
    ∃ d, Calm c d ∧ d.pool = p.takeOver i id ∧ (d.pool.Placed → Tends d (c.promote i net)) := by
  have hslots : c.pool.slots = p.slots := by
    rw [hc]
    rfl
  have hactive : (c.slots i).active = (p.slots i).active :=
    congrArg (fun slots : Nat → TcpPool.Slot => (slots i).active) hslots
  unfold promote TcpPool.takeOver
  rw [← hactive, ← hc]
  cases ha : (c.slots i).active with
  | none =>
    have hpool : ((c.takeOver i).inc .reconnects).pool = c.pool.promote i := by
      refine Eq.trans ?_ (pool_takeOver (f := fun s => s) i []
        (fun s => by rw [List.append_nil]; rfl) (by rw [ha]; rfl))
      refine pool_eq rfl (fun j => ?_) rfl rfl rfl rfl
      unfold updateSlot
      dsimp only
      split <;> rfl
    exact ⟨(c.takeOver i).inc .reconnects, rfl, hpool,
      fun hplaced => tends_refl hplaced⟩
  | some a =>
    have hpool : (((c.takeOver i).inc .connectionsRotated).updateSlot i
        (fun s => { s with retiring := s.retiring ++ [a] })).pool = c.pool.promote i :=
      pool_takeOver (c := c) (f := fun s => { s with retiring := s.retiring ++ [a] }) i [a]
        (fun _ => rfl)
        (by rw [ha]; rfl)
    obtain ⟨d, hcalm, hd, htends⟩ := retire_cases (c := ((c.takeOver i).inc
      .connectionsRotated).updateSlot i (fun s => { s with retiring := s.retiring ++ [a] })) a net
    refine ⟨d, hcalm, ?_, htends⟩
    have hne : a ≠ id := fun he => hp.active_ne_standby (hactive.symm.trans ha) (by rw [hs, he])
    have hstate : ((c.pool.promote i).link a).state = (p.link a).state := by
      show (c.pool.link a).state = (p.link a).state
      rw [hc, TcpPool.link_settle ((hp.fits i).bound id (TcpPool.Slot.mem_standby hs)).1,
        if_neg hne]
    rw [hd, hpool, hstate]

theorem tends_onConnected (h : c.pool.Placed) (id : Nat) (net : Network) :
    Tends c (c.onConnected id net) := by
  unfold onConnected
  split
  · exact tends_refl h
  · rename_i hc
    rw [Classical.not_not] at hc
    dsimp only
    obtain ⟨d, hd, hcalm, hpool⟩ : ∃ d, (((c.updateLink id (fun l => { l with
        state := .opened, timer := false })).countConnect (c.link id).initial
        (c.link id).connectStarted net.now).initialAttemptDone id) = d
        ∧ Calm c d ∧ d.pool = c.pool.settle id .opened := by
      have hdone := calm_initialAttemptDone (c := (c.updateLink id (fun l => { l with
        state := .opened, timer := false })).countConnect (c.link id).initial
        (c.link id).connectStarted net.now) id
      refine ⟨_, rfl, hdone, ?_⟩
      exact pool_settle (c := c.countConnect (c.link id).initial (c.link id).connectStarted net.now)
          (f := fun l => { l with state := .opened, timer := false }) id (fun _ => rfl)
    rw [hd]
    have hstate : (c.pool.link id).state = .connecting := (state_pool id).trans hc
    have hslots : d.pool.slots = c.pool.slots := by
      rw [hpool]
      rfl
    unfold putToUse
    by_cases hs : (d.slots (c.link id).slot).standby = some id
    · rw [if_pos hs]
      have hstandby : (c.pool.slots (c.link id).slot).standby = some id := by
        rw [← hslots]
        exact hs
      obtain ⟨e, hcalm', he, htends⟩ := promote_cases hpool h hstandby net
      have hfollows : c.pool.Follows e.pool := by
        rw [he]
        exact h.follows_takeOver hstandby
      have hrest := htends hfollows.placed
      have hheeds := (hcalm.trans hcalm').heeds hfollows.placed hfollows.opens
      exact tends_of_heeds (hfollows.trans hrest.pool) (hheeds.trans hrest.waits.toHeeds)
    · rw [if_neg hs]
      -- it connects, so it is the one in use
      have hactive : (c.pool.slots (c.pool.link id).slot).active = some id := by
        refine (inUse_of_state h (Or.inl hc)).resolve_right (fun hs' => hs ?_)
        rw [← hslots, slot_pool] at hs'
        exact hs'
      have hfollows : c.pool.Follows d.pool := by
        rw [hpool]
        exact h.follows_connect hactive hstate
      split
      · exact tends_exit hfollows hcalm
      · exact tends_exit hfollows hcalm

theorem tends_onEvent (h : c.pool.Placed) (id : Nat) (event : ConnectionEvent) (net : Network) :
    Tends c (c.onEvent id event net) := by
  cases event with
  | connected => exact tends_onConnected h id net
  | connectedZeroRtt => exact tends_refl h
  | remoteClose => exact tends_onClose h id net
  | localClose => exact tends_onClose h id net

section

variable {α : Type} {f : TcpBenchmarkClientImpl → α → TcpBenchmarkClientImpl}
  (Q : TcpBenchmarkClientImpl → Prop) (hQ : ∀ {d d'}, Tends d d' → Q d → Q d')
  (hf : ∀ d x, d.pool.Placed → Q d → Tends d (f d x)) (h : c.pool.Placed) (hc : Q c)
include hQ hf h hc

/-- A loop over handlers, each of which keeps what the next one needs. -/
theorem tends_foldl (xs : List α) : Tends c (xs.foldl f c) := by
  induction xs generalizing c with
  | nil => exact tends_refl h
  | cons x xs ih =>
    have hx := hf c x h hc
    exact hx.trans (ih hx.placed (hQ hx hc))

/-- What a loop does for each of its elements, and nothing undoes, it does for all of them. -/
theorem foldl_settles {P : α → TcpBenchmarkClientImpl → Prop}
    (hP : ∀ d x, P x (f d x)) (hstable : ∀ {d d' x}, Tends d d' → P x d → P x d')
    {xs : List α} {x : α} (hx : x ∈ xs) : P x (xs.foldl f c) := by
  induction xs generalizing c with
  | nil => cases hx
  | cons y xs ih =>
    have hy := hf c y h hc
    rcases List.mem_cons.mp hx with rfl | hx
    · exact hstable (tends_foldl Q hQ hf hy.placed (hQ hy hc) xs) (hP c x)
    · exact ih hy.placed (hQ hy hc) hx

end

/-! ## Opening -/

theorem pool_place (i : Nat) (role : Role) (initial : Bool) (now : Nat) :
    (c.place i role initial now).pool = c.pool.place i role initial := by
  have hlength : c.pool.links.length = c.links.length := List.length_map _
  unfold TcpPool.place
  rw [hlength]
  have hlinks : (c.place i role initial now).pool.links
      = c.pool.links
        ++ [{ slot := i, state := .connecting, initial := initial, pending := initial }] :=
          List.map_append
  have hslots : (c.place i role initial now).pool.slots = fun j => if j = i then
        if role = .standby then { c.pool.slots j with standby := some c.links.length }
        else { c.pool.slots j with active := some c.links.length }
      else c.pool.slots j := by
    funext j
    show ((c.place i role initial now).slots j).place = _
    unfold place updateSlot
    dsimp only
    split
    · split <;> rfl
    · rfl
  show ({ c.pool with
    links := (c.place i role initial now).pool.links
    slots := (c.place i role initial now).pool.slots
    pendingOpens := (c.place i role initial now).pendingOpens
    placements := (c.place i role initial now).placements } : TcpPool) = _
  rw [hlinks, hslots]
  rfl

/-- What any handler makes of the client, one that opens links too. -/
structure Serves (c c' : TcpBenchmarkClientImpl) : Prop where
  placed : c'.pool.Placed
  connections : c'.pool.connections = c.pool.connections
  finished : c'.finished = c.finished
  live : c.finished = false → ∀ j, (c.pool.slots j).Live → (c'.pool.slots j).Live
  later : c.finished = true → ∀ id,
    TcpPool.rank (c.link id).state ≤ TcpPool.rank (c'.link id).state
  logged : c.pool.Logged → c'.pool.Logged
  waits : Minds c c'

theorem Tends.serves (h : Tends c c') : Serves c c' where
  placed := h.placed
  connections := h.pool.connections
  finished := h.pool.finished
  live := h.pool.live
  later := fun _ id => by
    rw [← state_pool, ← state_pool]
    exact h.pool.later id
  logged := h.pool.logged
  waits := h.waits

theorem Serves.trans (h : Serves c c') (h' : Serves c' c'') : Serves c c'' where
  placed := h'.placed
  connections := h'.connections.trans h.connections
  finished := h'.finished.trans h.finished
  live := fun hf j hj => h'.live (h.finished.trans hf) j (h.live hf j hj)
  later := fun hf id => (h.later hf id).trans (h'.later (h.finished.trans hf) id)
  logged := fun hl => h'.logged (h.logged hl)
  waits := h.waits.trans h'.waits

section OpenLink

variable {i : Nat} {role : Role} {initial : Bool}

theorem minds_place (now : Nat) (h : initial = true → c.waitingFor ≠ .opens) :
    Minds c (c.place i role initial now) := by
  cases initial with
  | false =>
    have hcalm : Calm c (c.place i role false now) := rfl
    exact hcalm.minds rfl
  | true =>
    exact ⟨⟨rfl, fun _ hw => absurd hw (h rfl)⟩, fun _ hw => absurd hw (h rfl)⟩

/-- A new link, in a slot that has room for it. -/
theorem serves_place (h : c.pool.Placed) (hi : i < c.pool.connections) (hfree : c.pool.Free i role)
    (hf : c.finished = false) (now : Nat) (hinitial : initial = true → c.waitingFor ≠ .opens) :
    Serves c (c.place i role initial now)
      ∧ ((c.place i role initial now).pool.slots i).Live
      ∧ ∀ j ≠ i, (c.place i role initial now).pool.slots j = c.pool.slots j := by
  have hpool := pool_place (c := c) i role initial now
  refine ⟨⟨?_, rfl, rfl, fun _ j hj => ?_, fun hfinished => ?_, fun hl => ?_,
    minds_place now hinitial⟩, ?_, fun j hj => ?_⟩
  · rw [hpool]
    exact h.place initial hfree hi
  · rw [hpool]
    exact TcpPool.live_place initial j (fun _ => hj)
  · rw [hf] at hfinished
    cases hfinished
  · rw [hpool]
    exact hl.place initial hfree
  · rw [hpool]
    exact TcpPool.live_place initial i (fun hne => absurd rfl hne)
  · rw [hpool]
    exact TcpPool.slots_place_of_ne initial hj

/-- Opening a link leaves its slot live, even where there is no connection to be had. -/
theorem serves_openLink (role : Role) (initial : Bool) (h : c.pool.Placed)
    (hi : i < c.pool.connections) (hfree : c.pool.Free i role)
    (hf : c.finished = false) (net : Network) (hinitial : initial = true → c.waitingFor ≠ .opens) :
    Serves c (c.openLink i role initial net)
      ∧ ((c.openLink i role initial net).pool.slots i).Live
      ∧ ∀ j ≠ i, (c.pool.slots j).links = [] →
          ((c.openLink i role initial net).pool.slots j).links = [] := by
  unfold openLink
  split
  · obtain ⟨hserves, hlive, hother⟩ := serves_place h hi hfree hf net.now hinitial
    have hraises := tends_foldl (fun _ => True) (fun _ _ => trivial)
      (fun d e hd _ => tends_onEvent hd c.links.length e net) hserves.placed trivial net.raises
    refine ⟨hserves.trans hraises.serves, hraises.pool.live (hserves.finished.trans hf) i hlive,
      fun j hj hempty => hraises.pool.empty j ?_⟩
    rw [hother j hj]
    exact hempty
  · have hpool : ((c.inc .connectFailures).scheduleRetry i net.now).pool = c.pool.arm i :=
      pool_scheduleRetry i net.now
    have hcalm := calm_scheduleRetry (c := c.inc .connectFailures) i net.now
    have hfollows : c.pool.Follows ((c.inc .connectFailures).scheduleRetry i net.now).pool := by
      rw [hpool]
      exact h.follows_arm hi
    refine ⟨Tends.serves ⟨hfollows, Calm.minds hcalm ?_⟩, ?_,
      fun j _ hempty => hfollows.empty j hempty⟩
    · show ((c.inc .connectFailures).scheduleRetry i net.now).pool.pendingOpens
          = c.pool.pendingOpens
      rw [hpool]
      exact (TcpPool.links_arm i).2.1
    · rw [hpool]
      exact TcpPool.live_arm hf (fun hne => absurd rfl hne)

end OpenLink

/-- `connectNext` opens only where there is room, and leaves its slot live. -/
theorem serves_connectNext (h : c.pool.Placed) {i : Nat} (hi : i < c.pool.connections)
    (net : Network) :
    Serves c (c.connectNext i net)
      ∧ (c.finished = false → ((c.connectNext i net).pool.slots i).Live) := by
  have hsame : Serves c c := (tends_refl h).serves
  unfold connectNext
  by_cases hfinished : c.finished = true
  · rw [if_pos hfinished]
    exact ⟨hsame, fun hf => absurd hfinished (by rw [hf]; exact Bool.false_ne_true)⟩
  · rw [if_neg hfinished]
    rw [Bool.not_eq_true] at hfinished
    cases ha : (c.slots i).active with
    | none =>
      dsimp only
      split
      · rename_i hs
        obtain ⟨hserves, hlive, -⟩ := serves_openLink .active false h hi
          ⟨ha, hs⟩ hfinished net nofun
        exact ⟨hserves, fun _ => hlive⟩
      · rename_i hs
        exact ⟨hsame, fun _ => Or.inr (Or.inl (Option.isSome_iff_ne_none.mpr hs))⟩
    | some id =>
      dsimp only
      split
      · rename_i hrotate
        obtain ⟨hserves, hlive, -⟩ := serves_openLink .standby false h hi
          ⟨hrotate.1, id, ha, (state_pool id).trans hrotate.2.1⟩ hfinished net nofun
        exact ⟨hserves, fun _ => hlive⟩
      · exact ⟨hsame, fun _ => Or.inl (by rw [show (c.pool.slots i).active = some id from ha]; rfl)⟩

/-! ## Timers and echoes -/

/-- A link is closed at once and its slot retries: a connect that took too long, or an echo that was
none on a link in use. -/
theorem tends_lost (id : Nat) (h : c.pool.Placed) (hid : (c.link id).state ≠ .closed)
    (net : Network) :
    Tends c ((c.closeLink id .noFlush net).scheduleRetry
      (c.link id).slot net.now).maybeExitWaitLoop := by
  obtain ⟨hdrop, hminds⟩ := lost_closeLink h hid net
  have hpool : ((c.closeLink id .noFlush net).scheduleRetry (c.link id).slot net.now).pool
      = (c.pool.drop id).arm (c.pool.link id).slot := by
    rw [pool_scheduleRetry, hdrop, slot_pool]
  have hfollows : c.pool.Follows
      ((c.closeLink id .noFlush net).scheduleRetry (c.link id).slot net.now).pool := by
    rw [hpool]
    exact h.follows_drop_arm (h.owned id (by rw [state_pool]; exact hid))
  have hretry : Minds (c.closeLink id .noFlush net)
      ((c.closeLink id .noFlush net).scheduleRetry (c.link id).slot net.now) := by
    refine (calm_scheduleRetry _ _).minds ?_
    show (TcpBenchmarkClientImpl.pool _).pendingOpens = (TcpBenchmarkClientImpl.pool _).pendingOpens
    rw [pool_scheduleRetry]
    exact (TcpPool.links_arm _).2.1
  exact tends_of_heeds hfollows (hminds.trans hretry).toHeeds

theorem tends_onTimer (h : c.pool.Placed) (id : Nat) (net : Network) :
    Tends c (c.onTimer id net) := by
  unfold onTimer
  split
  · rename_i hstate
    have hinc : Tends c (c.inc .connectFailures) := tends_of_pool h rfl rfl
    refine hinc.trans (tends_lost (c := c.inc .connectFailures) id hinc.placed ?_ net)
    show (c.link id).state ≠ .closed
    rw [hstate]
    exact nofun
  · rename_i hstate
    exact tends_closeLink h _ net (Or.inr hstate) nofun
  · exact tends_refl h
  · exact tends_refl h

/-- An echo is expected on links that are open only, and one of those that are in use retries. -/
theorem tends_onEchoMismatch (h : c.pool.Placed)
    (hid : (c.link id).state = .opened ∨ (c.link id).state = .retiring) (net : Network) :
    Tends c (c.onEchoMismatch id net) := by
  have hinc : Tends c (c.inc .echoMismatch) := tends_of_pool h rfl rfl
  unfold onEchoMismatch
  dsimp only
  refine hinc.trans ?_
  by_cases ha : (c.slots (c.link id).slot).active = some id
  · rw [if_pos (decide_eq_true (show ((c.inc .echoMismatch).slots
      ((c.inc .echoMismatch).link id).slot).active = some id from ha))]
    refine tends_lost id hinc.placed ?_ net
    show (c.link id).state ≠ .closed
    rcases hid with hid | hid <;> rw [hid] <;> exact nofun
  · rw [if_neg (by rw [decide_eq_true_iff]; exact ha)]
    have hretiring : (c.link id).state = .retiring := by
      refine hid.resolve_left (fun hopened => ha ?_)
      -- an open link is the one in use
      rcases inUse_of_state h (Or.inr hopened) with ha' | hs
      · rw [slot_pool] at ha'
        exact ha'
      · have hstate := (h.fits _).standby _ hs
        rw [state_pool, hopened] at hstate
        cases hstate
    exact (tends_closeLink hinc.placed .noFlush net (Or.inr hretiring) nofun).exit

theorem calm_addLatency (id latency : Nat) :
    Calm c (c.addLatency id latency) ∧ (c.addLatency id latency).pool = c.pool := by
  unfold addLatency
  split <;> exact ⟨rfl, rfl⟩

section

variable (h : c.pool.Placed)
include h

theorem tends_closeIfDone (id : Nat) (net : Network) :
    Tends c (c.closeIfDone id net) := by
  unfold closeIfDone
  split
  · rename_i hdone
    exact tends_closeLink h _ net (Or.inr hdone.1) (fun _ => by rw [hdone.1]; exact nofun)
  · exact tends_refl h

theorem tends_onEcho (hid : (c.link id).state = .opened ∨ (c.link id).state = .retiring)
    (bytes : List UInt8) (net : Network) : Tends c (c.onEcho id bytes net) := by
  unfold onEcho
  split
  · exact tends_onEchoMismatch h hid net
  · rename_i message rest hinflight
    split
    · exact tends_onEchoMismatch h hid net
    · obtain ⟨hcalm, hlatency⟩ := calm_addLatency
        (c := (c.inc .messagesReceived).completeFront id message true) id (net.now - message.sentAt)
      have hpool := hlatency.trans
        (pool_completeFront (c := c.inc .messagesReceived) id message true)
      have hreceived := tends_of_pool h hpool hcalm
      exact (hreceived.trans (tends_closeIfDone hreceived.placed id net)).exit

theorem tends_matchEchoes (id : Nat) (net : Network) (turns : Nat) :
    Tends c (matchEchoes id net turns c) := by
  induction turns generalizing c with
  | zero => exact tends_refl h
  | succ turns ih =>
    unfold matchEchoes
    dsimp only
    split
    · rename_i hread
      have hcut : Tends c (c.updateLink id (fun l => { l with
          received := l.received.drop c.message.length })) :=
        tends_updateLink h id fun _ => rfl
      have hstate : ((c.updateLink id (fun l => { l with
          received := l.received.drop c.message.length })).link id).state = (c.link id).state :=
        link_updateLink (P := fun j l => l.state = (c.link j).state) rfl (fun _ => rfl) id
      have hecho := tends_onEcho hcut.placed (by rw [hstate]; exact hread.2)
        ((c.link id).received.take c.message.length) net
      exact (hcut.trans hecho).trans (ih hecho.placed)
    · exact tends_refl h

theorem tends_onData (id : Nat) (data : List UInt8) (net : Network) :
    Tends c (c.onData id data net) := by
  unfold onData
  split
  · exact tends_refl h
  · have hkept : Tends c (c.updateLink id (fun l => { l with received := l.received ++ data })) :=
      tends_updateLink h id fun _ => rfl
    exact hkept.trans (tends_matchEchoes hkept.placed id net _)

theorem tends_onWriteBlocked (id : Nat) (blocked : Bool) :
    Tends c (c.onWriteBlocked id blocked) := by
  unfold onWriteBlocked
  split
  · exact tends_of_pool h (pool_updateLink (c := c.inc .writeBlocked) id (fun _ => rfl))
      rfl
  · exact tends_updateLink h id fun _ => rfl

/-! ## Messages -/

theorem tends_write (id callback : Nat) (net : Network) :
    Tends c (c.write id callback net) := by
  have htaken : ∀ d : TcpBenchmarkClientImpl, d.pool.Placed → Tends d
      ((if net.blocks then (d.inc .messagesSent).onWriteBlocked id true
        else d.inc .messagesSent).updateLink id (fun l => { l with sent := l.sent + 1 })) := by
    intro d hd
    have hsent : Tends d (d.inc .messagesSent) := tends_of_pool hd rfl rfl
    split
    · have hblocked := hsent.trans (tends_onWriteBlocked hsent.placed id true)
      exact hblocked.trans (tends_updateLink hblocked.placed id fun _ => rfl)
    · exact hsent.trans (tends_updateLink hsent.placed id fun _ => rfl)
  have hbooked : Tends c (if c.config.expectEcho then
      c.updateLink id (fun l => { l with
        inflight := l.inflight ++ [{ sentAt := net.now, completionCallback := callback }] })
      else { c with callbacks := c.callbacks.post callback true true }) := by
    split
    · exact tends_updateLink h id fun _ => rfl
    · exact tends_of_pool h rfl rfl
  exact hbooked.trans (htaken _ hbooked.placed)

theorem serves_send {i : Nat} (hi : i < c.pool.connections) (id callback : Nat) (net : Network) :
    Serves c (c.send i id callback net) := by
  have hwrite := tends_write h id callback net
  unfold send
  dsimp only
  split
  · refine hwrite.serves.trans (serves_connectNext hwrite.placed ?_ net).1
    rw [hwrite.pool.connections]
    exact hi
  · exact hwrite.serves

theorem serves_tryStartRequest (net : Network) :
    Serves c (c.tryStartRequest net) := by
  unfold tryStartRequest
  dsimp only
  have hgiven : Tends c { c with
      nextSlot := (c.nextSlot + 1) % c.config.connections.toNat
      callbacks := c.callbacks.give } := tends_of_pool h rfl rfl
  have hdropped : ∀ k, Serves c (drop { c with
      nextSlot := (c.nextSlot + 1) % c.config.connections.toNat
      callbacks := c.callbacks.give } k c.callbacks.calls) := by
    intro k
    refine Tends.serves ?_
    exact tends_of_pool h rfl rfl
  split
  · exact hdropped .unavailable
  · rename_i id ha
    split
    · exact hdropped .unavailable
    · split
      · exact hdropped .deferred
      · refine hgiven.serves.trans (serves_send hgiven.placed ?_ id _ net)
        exact h.lt_connections (TcpPool.Slot.mem_active ha)

/-- The retry timer of a slot fires, and it connects. -/
theorem serves_retry {i : Nat} (hi : (c.slots i).retryTimer.isSome = true) (net : Network) :
    Serves c ((c.updateSlot i (fun s => { s with
      retryTimer := none
      lastRetry := some net.now })).connectNext i net) := by
  have hpool : (c.updateSlot i (fun s => { s with
      retryTimer := none
      lastRetry := some net.now })).pool = c.pool.disarm i := pool_updateSlot i rfl
  have hlt : i < c.pool.connections := by
    by_contra hle
    have := (h.outside i (Nat.le_of_not_lt hle)).2
    rw [show (c.pool.slots i).retry = true from hi] at this
    cases this
  have hdisarmed := h.disarm i
  rw [← hpool] at hdisarmed
  obtain ⟨hserves, hlive⟩ := serves_connectNext hdisarmed (i := i) hlt net
  refine ⟨hserves.placed, hserves.connections, hserves.finished, fun hf j hj => ?_, hserves.later,
    fun hl => hserves.logged ?_,
    ⟨⟨hserves.waits.awaits, hserves.waits.patient⟩, hserves.waits.woken⟩⟩
  · by_cases hji : j = i
    · rw [hji]
      exact hlive hf
    · refine hserves.live hf j ?_
      rw [hpool]
      unfold TcpPool.disarm
      rw [TcpPool.slots_updateSlot, if_neg hji]
      exact hj
  · rw [hpool]
    refine hl.mono rfl (fun j id hid => ?_)
    unfold TcpPool.disarm at hid
    rw [TcpPool.slots_updateSlot] at hid
    split at hid
    · exact hid
    · exact hid

end

end TcpBenchmarkClientImpl

end Sortie.Engine
