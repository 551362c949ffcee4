import Mathlib.Algebra.Order.Ring.Int
import Sortie.Engine.TcpBenchmarkClient
import Sortie.Lib.Ledger

/-!
# The pool of slots

What the TCP client does with its slots, without the messages: which link is where, in
which state, and whether a retry is armed. A slot that has been opened is never given up:
it has a link, or one on the way, or a retry that will open one. No link is put where
another one is, and a replacement takes over only once it is open.

The operations are those that the client's handlers are made of, and each keeps the
links where they belong. Losing a link leaves its slot empty; whoever loses it has to
arm the retry.
-/

namespace Sortie.Engine

open TcpBenchmarkClientImpl (State Role Placement)

/-- A link was put where there was none, or in the place of another one when it was open. -/
def TcpBenchmarkClientImpl.Placement.Fair : Placement → Prop
  | .opened _ _ before _ => before = none
  | .promoted _ _ standby => ∃ id, standby = some (id, .opened)

namespace TcpPool

/-- A link, as far as its place goes. -/
structure Link where
  slot : Nat := 0
  state : State := .closed
  /-- whether this is its slot's first attempt -/
  initial : Bool := false
  /-- the first attempt, which is not resolved -/
  pending : Bool := false
  deriving DecidableEq, Repr

/-- A slot, and whether its retry is armed. -/
structure Slot where
  active : Option Nat := none
  standby : Option Nat := none
  retiring : List Nat := []
  retry : Bool := false
  deriving DecidableEq, Repr

/-- The links of a slot. -/
def Slot.links (s : Slot) : List Nat := s.active.toList ++ s.standby.toList ++ s.retiring

theorem Slot.mem_links {s : Slot} {id : Nat} :
    id ∈ s.links ↔ s.active = some id ∨ s.standby = some id ∨ id ∈ s.retiring := by
  unfold Slot.links
  rw [List.mem_append, List.mem_append, Option.mem_toList, Option.mem_toList, or_assoc]

/-- A slot without a link. -/
def Slot.without (s : Slot) (id : Nat) : Slot :=
  if s.active = some id then { s with active := none }
  else if s.standby = some id then { s with standby := none }
  else { s with retiring := s.retiring.erase id }

section Without

variable {s : Slot} {id j : Nat}

theorem Slot.mem_active (h : s.active = some j) : j ∈ s.links := Slot.mem_links.mpr (Or.inl h)

theorem Slot.mem_standby (h : s.standby = some j) : j ∈ s.links :=
  Slot.mem_links.mpr (Or.inr (Or.inl h))

theorem Slot.mem_retiring (h : j ∈ s.retiring) : j ∈ s.links :=
  Slot.mem_links.mpr (Or.inr (Or.inr h))

theorem Slot.active_without (h : (s.without id).active = some j) : s.active = some j ∧ j ≠ id := by
  revert h
  fun_cases Slot.without s id <;> intro h
  case case1 => cases h
  case case2 hna _ => exact ⟨h, fun he => hna (he ▸ h)⟩
  case case3 hna _ => exact ⟨h, fun he => hna (he ▸ h)⟩

theorem Slot.standby_without (h : (s.without id).standby = some j) :
    s.standby = some j ∧ (s.active ≠ some id → j ≠ id) := by
  revert h
  fun_cases Slot.without s id <;> intro h
  case case1 ha => exact ⟨h, fun hna => absurd ha hna⟩
  case case2 => cases h
  case case3 hns => exact ⟨h, fun _ he => hns (he ▸ h)⟩

theorem Slot.retiring_without (h : j ∈ (s.without id).retiring) : j ∈ s.retiring := by
  revert h
  fun_cases Slot.without s id <;> intro h
  case case3 => exact List.mem_of_mem_erase h
  all_goals exact h

theorem Slot.mem_links_of_without (h : j ∈ (s.without id).links) : j ∈ s.links := by
  rcases Slot.mem_links.mp h with h | h | h
  · exact Slot.mem_active (Slot.active_without h).1
  · exact Slot.mem_standby (Slot.standby_without h).1
  · exact Slot.mem_retiring (Slot.retiring_without h)

theorem Slot.mem_links_without (hne : j ≠ id) (h : j ∈ s.links) : j ∈ (s.without id).links := by
  rw [Slot.mem_links] at h ⊢
  fun_cases Slot.without s id
  case case1 ha => exact h.imp_left fun h => absurd (Option.some.inj (h.symm.trans ha)) hne
  case case2 hs =>
    exact h.imp_right (Or.imp_left fun h => absurd (Option.some.inj (h.symm.trans hs)) hne)
  case case3 => exact h.imp_right (Or.imp_right (List.mem_erase_of_ne hne).mpr)

theorem Slot.retry_without (s : Slot) (id : Nat) : (s.without id).retry = s.retry := by
  fun_cases Slot.without s id <;> rfl

end Without

/-- A slot that has a link, one on the way, or a retry that will open one. -/
def Slot.Live (s : Slot) : Prop := s.active.isSome ∨ s.standby.isSome ∨ s.retry = true

end TcpPool

open TcpPool in
structure TcpPool where
  connections : Nat
  slots : Nat → Slot
  links : List Link
  pendingOpens : Int
  finished : Bool
  placements : List Placement

namespace TcpPool

variable (p : TcpPool)

def link (id : Nat) : Link := p.links.getD id {}

def updateSlot (i : Nat) (f : Slot → Slot) : TcpPool :=
  { p with slots := fun j => if j = i then f (p.slots j) else p.slots j }

/-- A link moves on, and with it its first attempt is resolved. -/
def settle (id : Nat) (s : State) : TcpPool :=
  { p with
    links := p.links.modify id (fun l => { l with state := s, pending := false })
    pendingOpens := if (p.link id).pending then p.pendingOpens - 1 else p.pendingOpens }

def setState (id : Nat) (s : State) : TcpPool :=
  { p with links := p.links.modify id (fun l => { l with state := s }) }

/-- A link is taken out of its slot. -/
def release (id : Nat) : TcpPool := p.updateSlot (p.link id).slot (fun s => s.without id)

/-- The retry of a slot is armed, unless nothing is opened any more. -/
def arm (i : Nat) : TcpPool :=
  if p.finished then p else p.updateSlot i (fun s => { s with retry := true })

/-- The retry of a slot has run. -/
def disarm (i : Nat) : TcpPool := p.updateSlot i (fun s => { s with retry := false })

/-- A link is closed and taken out of its slot. -/
def drop (id : Nat) : TcpPool := (p.settle id .closed).release id

/-- A new link. -/
def place (i : Nat) (role : Role) (initial : Bool) : TcpPool :=
  let id := p.links.length
  let before := if role = .standby then (p.slots i).standby else (p.slots i).active
  { p with
    links := p.links
      ++ [{ slot := i, state := .connecting, initial := initial, pending := initial }]
    pendingOpens := if initial then p.pendingOpens + 1 else p.pendingOpens
    placements := p.placements ++ [Placement.opened i role before id]
    slots := fun j => if j = i then
        if role = .standby then { p.slots j with standby := some id }
        else { p.slots j with active := some id }
      else p.slots j }

/-- The standby of a slot takes the place of its active link, which retires. -/
def promote (i : Nat) : TcpPool :=
  let s := p.slots i
  let placement := Placement.promoted i s.active (s.standby.map (fun id => (id, (p.link id).state)))
  { p with
    placements := p.placements ++ [placement]
    slots := fun j => if j = i then
        { active := s.standby, standby := none, retiring := s.retiring ++ s.active.toList }
      else p.slots j }

/-- Nothing is opened any more. -/
def stop : TcpPool :=
  { p with finished := true, slots := fun i => { p.slots i with retry := false } }

/-! ## Links -/

variable {p}

theorem link_append (l : Link) (id : Nat) :
    ({ p with links := p.links ++ [l] } : TcpPool).link id
      = if id = p.links.length then l else p.link id :=
  Ledger.getD_append_singleton l id

variable {id i j : Nat} {s s' : State} {q p : TcpPool}

theorem lt_length_of_state (h : (p.link id).state ≠ .closed) : id < p.links.length := by
  by_contra hle
  apply h
  unfold link
  rw [List.getD_eq_default _ _ (Nat.le_of_not_lt hle)]

/-- A list in which one entry is changed. -/
theorem getD_modify {α : Type*} (l : List α) (f : α → α) (d : α) (hi : i < l.length)
    (j : Nat) : (l.modify i f).getD j d = if j = i then f (l.getD i d) else l.getD j d := by
  split
  · rename_i hj
    rw [hj]
    exact Ledger.getD_modify_self hi
  · rename_i hj
    exact Ledger.getD_modify_of_ne hj

theorem link_settle (h : id < p.links.length) (j : Nat) :
    (p.settle id s).link j
      = if j = id then { p.link id with state := s, pending := false } else p.link j :=
  getD_modify _ _ _ h j

theorem link_setState (h : id < p.links.length) (j : Nat) :
    (p.setState id s).link j = if j = id then { p.link id with state := s } else p.link j :=
  getD_modify _ _ _ h j

/-- Clearing a mark on one entry of a list takes it from the count of the marked ones. -/
theorem countP_modify {α : Type*} {q : α → Bool} {f : α → α} (hf : ∀ a, q (f a) = false)
    (l : List α) (d : α) (hi : i < l.length) :
    ((l.modify i f).countP q : Int)
      = if q (l.getD i d) then (l.countP q : Int) - 1 else l.countP q := by
  induction l generalizing i with
  | nil => exact absurd hi (Nat.not_lt_zero i)
  | cons a l ih =>
    cases i with
    | zero =>
      rw [List.modify_zero_cons, List.countP_cons, List.countP_cons, List.getD_cons_zero, hf]
      cases q a <;> simp
    | succ i =>
      have := ih (Nat.lt_of_succ_lt_succ hi)
      rw [List.modify_succ_cons, List.countP_cons, List.countP_cons, List.getD_cons_succ,
        Nat.cast_add, this, Nat.cast_add]
      split <;> omega

/-- A link that is not there is closed as it is. -/
theorem link_settle_closed (id j : Nat) :
    (p.settle id .closed).link j
      = if j = id then { p.link id with state := .closed, pending := false } else p.link j := by
  by_cases hid : id < p.links.length
  · exact link_settle hid j
  · have hsame : (p.settle id .closed).links = p.links := List.modify_eq_self (Nat.le_of_not_lt hid)
    have hdefault : p.link id = {} := List.getD_eq_default _ _ (Nat.le_of_not_lt hid)
    unfold link at hdefault ⊢
    rw [hsame, hdefault]
    split
    · rename_i hj
      rw [hj, hdefault]
    · rfl

/-! ## Links where they belong -/

/-- A slot as it should be: its links are its own, and in the states their roles allow. -/
structure Slot.Fits (s : Slot) (p : TcpPool) (i : Nat) : Prop where
  bound : ∀ id ∈ s.links, id < p.links.length ∧ (p.link id).slot = i
  /-- a link in use is connecting or open, until everything is closed -/
  active : ∀ id, s.active = some id → (p.link id).state = .connecting ∨ (p.link id).state = .opened
    ∨ (p.link id).state = .closed ∧ p.finished = true
  standby : ∀ id, s.standby = some id → (p.link id).state = .connecting
  /-- a link stands by for one that is open, or that was -/
  alone : ∀ id id', s.standby = some id → s.active = some id' → (p.link id').state ≠ .connecting
  retiring : ∀ id ∈ s.retiring, (p.link id).state = .retiring ∨ (p.link id).state = .closed

/-- The links of a pool are where they belong. -/
structure Placed (p : TcpPool) : Prop where
  fits : ∀ i, (p.slots i).Fits p i
  /-- no link is forgotten before it is closed -/
  owned : ∀ id, (p.link id).state ≠ .closed → id ∈ (p.slots (p.link id).slot).links
  outside : ∀ i, p.connections ≤ i → (p.slots i).links = [] ∧ (p.slots i).retry = false
  /-- a first attempt is resolved when its link connects or is closed -/
  pending : ∀ id, (p.link id).pending = true
    ↔ (p.link id).initial = true ∧ (p.link id).state = .connecting
  count : p.pendingOpens = (p.links.countP Link.pending : Int)
  placements : ∀ x ∈ p.placements, x.Fair

/-- A slot whose links stay as they are fits as it did. -/
theorem Slot.Fits.keep {s s' : Slot} (h : s.Fits p i)
    (hlinks : ∀ id ∈ s.links, q.link id = p.link id) (hlength : p.links.length ≤ q.links.length)
    (hfinished : p.finished = true → q.finished = true) (ha : s'.active = s.active)
    (hs : s'.standby = s.standby) (hr : s'.retiring = s.retiring) : s'.Fits q i := by
  have hmem : s'.links = s.links := by
    unfold Slot.links
    rw [ha, hs, hr]
  constructor
  · intro id hid
    rw [hmem] at hid
    rw [hlinks id hid]
    exact ⟨(h.bound id hid).1.trans_le hlength, (h.bound id hid).2⟩
  · intro id hid
    rw [ha] at hid
    rw [hlinks id (Slot.mem_active hid)]
    exact (h.active id hid).imp_right (Or.imp_right (And.imp_right hfinished))
  · intro id hid
    rw [hs] at hid
    rw [hlinks id (Slot.mem_standby hid)]
    exact h.standby id hid
  · intro id id' hid hid'
    rw [hs] at hid
    rw [ha] at hid'
    rw [hlinks id' (Slot.mem_active hid')]
    exact h.alone id id' hid hid'
  · intro id hid
    rw [hr] at hid
    rw [hlinks id (Slot.mem_retiring hid)]
    exact h.retiring id hid

theorem count_settle (id : Nat) (s : State)
    (h : p.pendingOpens = (p.links.countP Link.pending : Int)) :
    (p.settle id s).pendingOpens = ((p.settle id s).links.countP Link.pending : Int) := by
  unfold settle
  by_cases hid : id < p.links.length
  · rw [countP_modify (fun _ => rfl) _ {} hid, h]
    rfl
  · have hdefault : p.link id = {} := List.getD_eq_default _ _ (Nat.le_of_not_lt hid)
    rw [List.modify_eq_self (Nat.le_of_not_lt hid), hdefault]
    exact h

/-- A link opens or is closed, wherever else it is left out. -/
theorem Placed.settled (h : Placed p) (hs : s ≠ .connecting)
    (hmoves : s = .closed ∨ (p.link id).state ≠ .closed)
    (hq : q.links = (p.settle id s).links)
    (hpending : q.pendingOpens = (p.settle id s).pendingOpens)
    (hconnections : q.connections = p.connections) (hfinished : q.finished = p.finished)
    (hplacements : q.placements = p.placements)
    (hactive : ∀ i j, (q.slots i).active = some j → (p.slots i).active = some j
      ∧ (j = id → s = .opened ∨ s = .closed ∧ p.finished = true))
    (hstandby : ∀ i j, (q.slots i).standby = some j → (p.slots i).standby = some j ∧ j ≠ id)
    (hretiring : ∀ i j, j ∈ (q.slots i).retiring →
      j ∈ (p.slots i).retiring ∧ (j = id → s = .closed))
    (hkeep : ∀ i j, (j = id → s ≠ .closed) → j ∈ (p.slots i).links → j ∈ (q.slots i).links)
    (hretry : ∀ i, (q.slots i).retry = (p.slots i).retry) : Placed q := by
  have hlink : ∀ j, q.link j
      = if j = id then { p.link id with state := s, pending := false } else p.link j := by
    intro j
    unfold link
    rw [hq]
    rcases hmoves with rfl | hne
    · exact link_settle_closed id j
    · exact link_settle (lt_length_of_state hne) j
  have hlength : q.links.length = p.links.length := by
    rw [hq]
    exact List.length_modify _ _ _
  have hmem : ∀ i j, j ∈ (q.slots i).links → j ∈ (p.slots i).links := by
    intro i j hj
    rcases Slot.mem_links.mp hj with hj | hj | hj
    · exact Slot.mem_active (hactive i j hj).1
    · exact Slot.mem_standby (hstandby i j hj).1
    · exact Slot.mem_retiring (hretiring i j hj).1
  have hslot : ∀ j, (q.link j).slot = (p.link j).slot := by
    intro j
    rw [hlink]
    split
    · rename_i hj
      rw [hj]
    · rfl
  refine .mk (fun i => ⟨fun j hj => ?_, fun j hj => ?_, fun j hj => ?_, fun j j' hj hj' => ?_,
    fun j hj => ?_⟩) (fun j hj => ?_) (fun i hi => ?_) (fun j => ?_) ?_ ?_
  · rw [hlength, hslot]
    exact (h.fits i).bound j (hmem i j hj)
  · obtain ⟨hbefore, hid⟩ := hactive i j hj
    rw [hlink, hfinished]
    split
    · rename_i hjid
      exact Or.inr (hid hjid)
    · exact (h.fits i).active j hbefore
  · obtain ⟨hbefore, hne⟩ := hstandby i j hj
    rw [hlink, if_neg hne]
    exact (h.fits i).standby j hbefore
  · rw [hlink]
    split
    · exact hs
    · exact (h.fits i).alone j j' (hstandby i j hj).1 (hactive i j' hj').1
  · obtain ⟨hbefore, hid⟩ := hretiring i j hj
    rw [hlink]
    split
    · rename_i hjid
      exact Or.inr (hid hjid)
    · exact (h.fits i).retiring j hbefore
  · rw [hslot]
    rw [hlink] at hj
    split at hj
    · rename_i hjid
      exact hkeep _ j (fun _ => hj) (h.owned j (by rw [hjid]; exact hmoves.resolve_left hj))
    · rename_i hne
      exact hkeep _ j (fun hjid => absurd hjid hne) (h.owned j hj)
  · rw [hconnections] at hi
    obtain ⟨hempty, hoff⟩ := h.outside i hi
    refine ⟨List.eq_nil_iff_forall_not_mem.mpr (fun j hj => ?_), (hretry i).trans hoff⟩
    have := hmem i j hj
    rw [hempty] at this
    cases this
  · rw [hlink]
    split
    · exact iff_of_false nofun (fun hc => hs hc.2)
    · exact h.pending j
  · rw [hpending, hq]
    exact count_settle _ _ h.count
  · rw [hplacements]
    exact h.placements

/-! ## Closing -/

/-- A link that is only waiting for echoes, or any link when everything is closed, is closed where
it is. -/
theorem Placed.shut (h : Placed p)
    (hid : p.finished = true ∨ (p.link id).state = .retiring)
    (hnot : (p.link id).state ≠ .connecting) : Placed (p.settle id .closed) := by
  refine h.settled (s := .closed) nofun (Or.inl rfl) rfl rfl rfl rfl rfl
    (fun i j hj => ⟨hj, fun hjid => Or.inr ⟨rfl, ?_⟩⟩) (fun i j hj => ⟨hj, fun hjid => ?_⟩)
    (fun _ _ hj => ⟨hj, fun _ => rfl⟩) (fun _ _ _ hj => hj) (fun _ => rfl)
  · rcases hid with hfinished | hretiring
    · exact hfinished
    · rw [hjid] at hj
      rcases (h.fits i).active id hj with hs | hs | ⟨hs, hf⟩
      · exact absurd hs hnot
      · rw [hretiring] at hs
        cases hs
      · exact hf
  · rw [hjid] at hj
    exact hnot ((h.fits i).standby id hj)

/-- A slot that an update leaves as it is. -/
theorem updateSlot_of_eq {f : Slot → Slot} (h : f (p.slots i) = p.slots i) :
    p.updateSlot i f = p := by
  refine congrArg (fun slots => { p with slots := slots }) (funext fun j => ?_)
  split
  · rename_i hj
    rw [hj, h]
  · rfl

theorem slots_updateSlot (i : Nat) (f : Slot → Slot) (j : Nat) :
    (p.updateSlot i f).slots j = if j = i then f (p.slots j) else p.slots j := rfl

/-- A link in use does not stand by. -/
theorem Placed.active_ne_standby (h : Placed p) (ha : (p.slots i).active = some id) :
    (p.slots i).standby ≠ some id :=
  fun hs => (h.fits i).alone id id hs ha ((h.fits i).standby id hs)

theorem Placed.slot_of_active (h : Placed p) (ha : (p.slots i).active = some id) :
    (p.link id).slot = i := ((h.fits i).bound id (Slot.mem_active ha)).2

theorem Placed.slot_of_standby (h : Placed p) (hs : (p.slots i).standby = some id) :
    (p.link id).slot = i := ((h.fits i).bound id (Slot.mem_standby hs)).2

theorem slots_drop (id j : Nat) :
    (p.drop id).slots j = if j = (p.link id).slot then (p.slots j).without id else p.slots j := by
  unfold drop release
  rw [slots_updateSlot, link_settle_closed, if_pos rfl]
  rfl

theorem slot_drop_self (id : Nat) : ((p.drop id).link id).slot = (p.link id).slot := by
  show ((p.settle id .closed).link id).slot = (p.link id).slot
  rw [link_settle_closed, if_pos rfl]

/-- A link that its slot loses with it: one in use, or one that stands by. -/
def InUse (p : TcpPool) (id : Nat) : Prop :=
  (p.slots (p.link id).slot).active = some id ∨ (p.slots (p.link id).slot).standby = some id

instance (id : Nat) : Decidable (p.InUse id) := inferInstanceAs (Decidable (_ ∨ _))

theorem inUse_settle_closed (id : Nat) : (p.settle id .closed).InUse id ↔ p.InUse id := by
  unfold InUse
  rw [link_settle_closed, if_pos rfl]
  exact Iff.rfl

/-- Closing a link again changes nothing. -/
theorem drop_settle_closed (id : Nat) : (p.settle id .closed).drop id = p.drop id := by
  have hpending : ((p.settle id .closed).link id).pending = false := by
    rw [link_settle_closed, if_pos rfl]
  have hlinks : ((p.settle id .closed).settle id .closed).links = (p.settle id .closed).links :=
    List.modify_modify_eq ..
  have hopens : ((p.settle id .closed).settle id .closed).pendingOpens
      = (p.settle id .closed).pendingOpens :=
    if_neg (by rw [hpending]; exact Bool.false_ne_true)
  have hsettle : (p.settle id .closed).settle id .closed = p.settle id .closed := by
    show ({ p.settle id .closed with
      links := ((p.settle id .closed).settle id .closed).links
      pendingOpens := ((p.settle id .closed).settle id .closed).pendingOpens } : TcpPool) = _
    rw [hlinks, hopens]
  unfold drop
  rw [hsettle]

theorem Placed.drop (h : Placed p) (id : Nat) : Placed (p.drop id) := by
  refine h.settled (s := .closed) nofun (Or.inl rfl) rfl rfl rfl rfl rfl (fun i j hj => ?_)
    (fun i j hj => ?_)
    (fun i j hj => ⟨?_, fun _ => rfl⟩) (fun i j hne hj => ?_) (fun i => ?_)
  all_goals rw [slots_drop] at *
  all_goals by_cases hi : i = (p.link id).slot
  · rw [if_pos hi] at hj
    obtain ⟨hbefore, hne⟩ := Slot.active_without hj
    exact ⟨hbefore, fun he => absurd he hne⟩
  · rw [if_neg hi] at hj
    refine ⟨hj, fun he => ?_⟩
    rw [he] at hj
    exact absurd (h.slot_of_active hj).symm hi
  · rw [if_pos hi] at hj
    obtain ⟨hbefore, hne⟩ := Slot.standby_without hj
    refine ⟨hbefore, fun he => ?_⟩
    -- were it in use too, it would have been taken out there
    refine hne (fun ha => ?_) he
    rw [he] at hbefore
    exact h.active_ne_standby ha hbefore
  · rw [if_neg hi] at hj
    refine ⟨hj, fun he => ?_⟩
    rw [he] at hj
    exact hi (h.slot_of_standby hj).symm
  · rw [if_pos hi] at hj
    exact Slot.retiring_without hj
  · rw [if_neg hi] at hj
    exact hj
  · rw [if_pos hi]
    exact Slot.mem_links_without (fun he => hne he rfl) hj
  · rw [if_neg hi]
    exact hj
  · rw [if_pos hi]
    exact Slot.retry_without _ _
  · rw [if_neg hi]

/-! ## Retries -/

/-- Retries and the end of all opening do not move links. -/
theorem Placed.rearm (h : Placed p) (hlinks : q.links = p.links)
    (hpending : q.pendingOpens = p.pendingOpens) (hconnections : q.connections = p.connections)
    (hfinished : p.finished = true → q.finished = true) (hplacements : q.placements = p.placements)
    (hslots : ∀ i, (q.slots i).active = (p.slots i).active
      ∧ (q.slots i).standby = (p.slots i).standby ∧ (q.slots i).retiring = (p.slots i).retiring)
    (hretry : ∀ i, p.connections ≤ i → (q.slots i).retry = false) : Placed q := by
  have hlink : ∀ j, q.link j = p.link j := by
    intro j
    unfold link
    rw [hlinks]
  have hmem : ∀ i, (q.slots i).links = (p.slots i).links := by
    intro i
    obtain ⟨ha, hs, hr⟩ := hslots i
    unfold Slot.links
    rw [ha, hs, hr]
  refine .mk (fun i => ?_) (fun j hj => ?_) (fun i hi => ?_) (fun j => ?_) ?_ ?_
  · obtain ⟨ha, hs, hr⟩ := hslots i
    exact (h.fits i).keep (fun j _ => hlink j) (by rw [hlinks]) hfinished ha hs hr
  · rw [hlink] at hj ⊢
    rw [hmem]
    exact h.owned j hj
  · rw [hconnections] at hi
    exact ⟨(hmem i).trans (h.outside i hi).1, hretry i hi⟩
  · rw [hlink]
    exact h.pending j
  · rw [hpending, hlinks]
    exact h.count
  · rw [hplacements]
    exact h.placements

theorem Placed.arm (h : Placed p) (hi : i < p.connections) : Placed (p.arm i) := by
  unfold TcpPool.arm
  split
  · exact h
  · refine h.rearm rfl rfl rfl (fun hf => hf) rfl (fun j => ?_) (fun j hj => ?_)
    · rw [slots_updateSlot]
      split <;> exact ⟨rfl, rfl, rfl⟩
    · rw [slots_updateSlot, if_neg (by omega)]
      exact (h.outside j hj).2

theorem Placed.disarm (h : Placed p) (i : Nat) : Placed (p.disarm i) := by
  refine h.rearm rfl rfl rfl (fun hf => hf) rfl (fun j => ?_) (fun j hj => ?_)
  · unfold TcpPool.disarm
    rw [slots_updateSlot]
    split <;> exact ⟨rfl, rfl, rfl⟩
  · unfold TcpPool.disarm
    rw [slots_updateSlot]
    split
    · rfl
    · exact (h.outside j hj).2

theorem Placed.stop (h : Placed p) : Placed p.stop :=
  h.rearm rfl rfl rfl (fun _ => rfl) rfl (fun _ => ⟨rfl, rfl, rfl⟩) (fun _ _ => rfl)

/-! ## Opening -/

theorem link_place (i : Nat) (role : Role) (initial : Bool) (id : Nat) :
    (p.place i role initial).link id
      = if id = p.links.length then
          { slot := i, state := .connecting, initial := initial, pending := initial }
        else p.link id := link_append _ id

/-- A role that is free, for the link that is to have it. -/
def Free (p : TcpPool) (i : Nat) : Role → Prop
  | .active => (p.slots i).active = none ∧ (p.slots i).standby = none
  | .standby => (p.slots i).standby = none
      ∧ ∃ id, (p.slots i).active = some id ∧ (p.link id).state = .opened
  | _ => False

theorem free_of_empty (h : (p.slots i).links = []) : p.Free i .active := by
  unfold Slot.links at h
  simp only [List.append_eq_nil_iff, Option.toList_eq_nil_iff] at h
  exact h.1

section Place

variable {i : Nat} {role : Role} (initial : Bool)

theorem slots_place_of_ne (hj : j ≠ i) : (p.place i role initial).slots j = p.slots j := if_neg hj

theorem slots_place_self : (p.place i role initial).slots i
    = if role = .standby then { p.slots i with standby := some p.links.length }
      else { p.slots i with active := some p.links.length } := if_pos rfl

section

variable (hfree : p.Free i role)
include hfree

/-- A role that is free is one of two. -/
theorem Free.cases :
    role = .active ∧ (p.slots i).active = none ∧ (p.slots i).standby = none
      ∨ role = .standby ∧ (p.slots i).standby = none
        ∧ ∃ id, (p.slots i).active = some id ∧ (p.link id).state = .opened := by
  cases role with
  | active => exact Or.inl ⟨rfl, hfree⟩
  | standby => exact Or.inr ⟨rfl, hfree⟩
  | retiring => exact hfree.elim
  | none => exact hfree.elim

theorem mem_links_place_self (id : Nat) :
    id ∈ ((p.place i role initial).slots i).links
      ↔ id ∈ (p.slots i).links ∨ id = p.links.length := by
  rw [slots_place_self]
  obtain ⟨rfl, ha, hs⟩ | ⟨rfl, hs, -⟩ := hfree.cases
  · rw [if_neg nofun, Slot.mem_links, Slot.mem_links, ha, hs]
    simp [eq_comm, or_comm]
  · rw [if_pos rfl, Slot.mem_links, Slot.mem_links, hs]
    simp [eq_comm, or_comm, or_left_comm]

/-- The link of a role before it is placed is none. -/
theorem Free.before :
    (if role = .standby then (p.slots i).standby else (p.slots i).active) = none := by
  obtain ⟨rfl, ha, -⟩ | ⟨rfl, hs, -⟩ := hfree.cases
  · exact ha
  · exact hs

/-- The slot of the new link. -/
theorem Placed.fits_place (h : Placed p) :
    ((p.place i role initial).slots i).Fits (p.place i role initial) i := by
  have hnew : (p.place i role initial).link p.links.length
      = { slot := i, state := .connecting, initial := initial, pending := initial } := by
    rw [link_place, if_pos rfl]
  have hlength : (p.place i role initial).links.length = p.links.length + 1 := List.length_append
  have hkept : (p.slots i).Fits (p.place i role initial) i := by
    refine (h.fits i).keep (fun id hid => ?_) (by omega) (fun hf => hf) rfl rfl rfl
    rw [link_place, if_neg (Nat.ne_of_lt ((h.fits i).bound id hid).1)]
  have hbound : ∀ id ∈ ((p.place i role initial).slots i).links,
      id < (p.place i role initial).links.length ∧ ((p.place i role initial).link id).slot = i := by
    intro id hid
    rcases (mem_links_place_self initial hfree id).mp hid with hid | rfl
    · exact hkept.bound id hid
    · rw [hnew]
      exact ⟨by omega, rfl⟩
  rw [slots_place_self] at hbound ⊢
  obtain ⟨rfl, -, hs⟩ | ⟨rfl, -, a, ha, ho⟩ := hfree.cases
  · refine ⟨hbound, fun id hid => ?_, fun id hid => ?_, fun id _ hid => ?_, hkept.retiring⟩
    · rw [← Option.some.inj hid, hnew]
      exact Or.inl rfl
    · exact absurd (hs.symm.trans hid) nofun
    · exact absurd (hs.symm.trans hid) nofun
  · refine ⟨hbound, hkept.active, fun id hid => ?_, fun _ id _ hid => ?_, hkept.retiring⟩
    · rw [← Option.some.inj hid, hnew]
    · -- it stands by for a link that is open
      rw [← Option.some.inj (ha.symm.trans hid), link_place,
        if_neg (Nat.ne_of_lt ((h.fits i).bound a (Slot.mem_active ha)).1), ho]
      exact nofun

theorem Placed.place (h : Placed p) (hi : i < p.connections) :
    Placed (p.place i role initial) := by
  have hmem := mem_links_place_self initial hfree
  refine .mk (fun j => ?_) (fun id hid => ?_) (fun j hj => ?_) (fun id => ?_) ?_
    (fun x hx => ?_)
  · by_cases hj : j = i
    · rw [hj]
      exact h.fits_place initial hfree
    · rw [slots_place_of_ne initial hj]
      refine (h.fits j).keep (fun id hid => ?_) ?_ (fun hf => hf) rfl rfl rfl
      · rw [link_place, if_neg (Nat.ne_of_lt ((h.fits j).bound id hid).1)]
      · rw [show (p.place i role initial).links.length = _ from List.length_append]
        exact Nat.le_succ _
  · rw [link_place] at hid ⊢
    split at hid
    · rename_i he
      rw [if_pos he]
      exact (hmem id).mpr (Or.inr he)
    · rename_i he
      rw [if_neg he]
      have howned := h.owned id hid
      by_cases hj : (p.link id).slot = i
      · rw [hj] at howned ⊢
        exact (hmem id).mpr (Or.inl howned)
      · rw [slots_place_of_ne initial hj]
        exact howned
  · rw [slots_place_of_ne initial (by rintro rfl; exact absurd hi (Nat.not_lt.mpr hj))]
    exact h.outside j hj
  · rw [link_place]
    split
    · exact (and_iff_left rfl).symm
    · exact h.pending id
  · show (if initial then p.pendingOpens + 1 else p.pendingOpens)
      = ((p.links ++ [_]).countP Link.pending : Int)
    rw [List.countP_append, List.countP_singleton, h.count]
    cases initial with
    | true => rfl
    | false => rfl
  · rcases List.mem_append.mp hx with hx | hx
    · exact h.placements x hx
    · rw [List.mem_singleton.mp hx]
      exact hfree.before

end

end Place

/-! ## Connecting -/

theorem Placed.lt_connections (h : Placed p) (hid : id ∈ (p.slots i).links) :
    i < p.connections := by
  by_contra hi
  rw [(h.outside i (Nat.le_of_not_lt hi)).1] at hid
  cases hid

/-- The link in use connects. -/
theorem Placed.connect (h : Placed p) (ha : (p.slots i).active = some id)
    (hc : (p.link id).state = .connecting) : Placed (p.settle id .opened) := by
  refine h.settled (s := .opened) nofun (Or.inr (by rw [hc]; exact nofun)) rfl rfl rfl rfl rfl
    (fun _ _ hk => ⟨hk, fun _ => Or.inl rfl⟩) (fun j k hk => ⟨hk, ?_⟩) (fun j k hk => ⟨hk, ?_⟩)
    (fun _ _ _ hk => hk) (fun _ => rfl)
  · rintro rfl
    rw [← h.slot_of_active ha, h.slot_of_standby hk] at ha
    exact h.active_ne_standby ha hk
  · rintro rfl
    rcases (h.fits j).retiring k hk with hr | hr <;> rw [hc] at hr <;> cases hr

/-- The standby connects and takes over. What it takes over from retires if it is open. -/
def takeOver (p : TcpPool) (i id : Nat) : TcpPool :=
  let q := (p.settle id .opened).promote i
  match (p.slots i).active with
  | none => q
  | some a => if (p.link a).state = .opened then q.setState a .retiring else q

theorem slots_takeOver (i id j : Nat) :
    (p.takeOver i id).slots j
      = if j = i then
          { active := (p.slots i).standby, standby := none
            retiring := (p.slots i).retiring ++ (p.slots i).active.toList }
        else p.slots j := by
  unfold takeOver
  split
  · rfl
  · split <;> rfl

theorem link_takeOver (h : Placed p) (hs : (p.slots i).standby = some id) (j : Nat) :
    (p.takeOver i id).link j
      = if j = id then { p.link id with state := .opened, pending := false }
        else if (p.slots i).active = some j ∧ (p.link j).state = .opened then
          { p.link j with state := .retiring }
        else p.link j := by
  have hid := ((h.fits i).bound id (Slot.mem_standby hs)).1
  have hpromoted : ∀ j, ((p.settle id .opened).promote i).link j
      = if j = id then { p.link id with state := .opened, pending := false } else p.link j :=
    link_settle hid
  unfold takeOver
  split
  · rename_i ha
    rw [hpromoted, ha]
    simp
  · rename_i a ha
    have hne : a ≠ id := fun he => h.active_ne_standby ha (by rw [hs, he])
    have hbound := ((h.fits i).bound a (Slot.mem_active ha)).1
    split
    · rename_i hopened
      rw [link_setState (by
        rw [show ((p.settle id .opened).promote i).links.length = p.links.length from
          List.length_modify _ _ _]
        exact hbound), hpromoted, hpromoted, if_neg hne]
      by_cases hj : j = a
      · rw [if_pos hj, hj, if_neg hne, if_pos ⟨ha, hopened⟩]
      · rw [if_neg hj]
        split
        · rfl
        · rw [if_neg (fun hc => hj (Option.some.inj (ha.symm.trans hc.1)).symm)]
    · rename_i hn
      rw [hpromoted]
      split
      · rfl
      · rw [if_neg (fun hc => hn ?_)]
        rw [Option.some.inj (ha.symm.trans hc.1)]
        exact hc.2

theorem slot_takeOver (h : Placed p) (hs : (p.slots i).standby = some id) (j : Nat) :
    ((p.takeOver i id).link j).slot = (p.link j).slot := by
  rw [link_takeOver h hs]
  split
  · rename_i hj
    rw [hj]
  · split <;> rfl

theorem countP_modify_same {α : Type*} {q : α → Bool} {f : α → α} (hf : ∀ a, q (f a) = q a)
    (l : List α) (i : Nat) : (l.modify i f).countP q = l.countP q := by
  induction l generalizing i with
  | nil => rw [List.modify_nil]
  | cons a l ih =>
    cases i with
    | zero => rw [List.modify_zero_cons, List.countP_cons, List.countP_cons, hf]
    | succ i => rw [List.modify_succ_cons, List.countP_cons, List.countP_cons, ih]

theorem count_takeOver (h : p.pendingOpens = (p.links.countP Link.pending : Int)) :
    (p.takeOver i id).pendingOpens = ((p.takeOver i id).links.countP Link.pending : Int) := by
  have hsettled := count_settle id .opened h
  unfold takeOver
  split
  · exact hsettled
  · split
    · refine hsettled.trans ?_
      exact congrArg Nat.cast (countP_modify_same (q := Link.pending)
        (f := fun l => { l with state := .retiring }) (fun _ => rfl) _ _).symm
    · exact hsettled

theorem placements_takeOver (h : Placed p) (hs : (p.slots i).standby = some id) :
    (p.takeOver i id).placements
      = p.placements ++ [Placement.promoted i (p.slots i).active (some (id, .opened))] := by
  have hsame : (p.takeOver i id).placements = ((p.settle id .opened).promote i).placements := by
    unfold takeOver
    dsimp only
    split
    · rfl
    · split <;> rfl
  rw [hsame]
  show _ ++ [Placement.promoted i _ ((p.slots i).standby.map _)] = _
  rw [hs, Option.map_some, link_settle ((h.fits i).bound id (Slot.mem_standby hs)).1, if_pos rfl]
  rfl

theorem frame_takeOver (i id : Nat) :
    (p.takeOver i id).connections = p.connections ∧ (p.takeOver i id).finished = p.finished
      ∧ (p.takeOver i id).links.length = p.links.length := by
  unfold takeOver
  split
  · exact ⟨rfl, rfl, List.length_modify _ _ _⟩
  · split
    · exact ⟨rfl, rfl, (List.length_modify _ _ _).trans (List.length_modify _ _ _)⟩
    · exact ⟨rfl, rfl, List.length_modify _ _ _⟩

theorem links_takeOver (hs : (p.slots i).standby = some id) (j k : Nat) :
    k ∈ ((p.takeOver i id).slots j).links ↔ k ∈ (p.slots j).links := by
  rw [slots_takeOver]
  split
  · rename_i hj
    rw [hj, Slot.mem_links, Slot.mem_links, hs]
    simp [or_comm, or_left_comm]
  · exact Iff.rfl

/-- The slot whose standby takes over: what it takes over from retires, or was closed. -/
theorem Placed.fits_takeOver (h : Placed p) (hs : (p.slots i).standby = some id) :
    ((p.takeOver i id).slots i).Fits (p.takeOver i id) i := by
  have hlink := link_takeOver h hs
  have hbound : ∀ k ∈ ((p.takeOver i id).slots i).links,
      k < (p.takeOver i id).links.length ∧ ((p.takeOver i id).link k).slot = i := by
    intro k hk
    rw [(frame_takeOver i id).2.2, slot_takeOver h hs]
    exact (h.fits i).bound k ((links_takeOver hs i k).mp hk)
  rw [slots_takeOver, if_pos rfl] at hbound ⊢
  refine ⟨hbound, fun k hk => ?_, nofun, nofun, fun k hk => ?_⟩
  · rw [hlink, if_pos (Option.some.inj (hs.symm.trans hk)).symm]
    exact Or.inr (Or.inl rfl)
  · rw [hlink]
    rcases List.mem_append.mp hk with hk | hk
    · -- it was retiring before, so it is neither of the two
      have hstate := (h.fits i).retiring k hk
      rw [if_neg, if_neg]
      · exact hstate
      · rintro ⟨-, ho⟩
        rw [ho] at hstate
        rcases hstate with hc | hc <;> cases hc
      · rintro rfl
        rw [(h.fits i).standby k hs] at hstate
        rcases hstate with hc | hc <;> cases hc
    · have ha : (p.slots i).active = some k := Option.mem_toList.mp hk
      rw [if_neg (fun he => h.active_ne_standby ha (by rw [hs, he]))]
      split
      · exact Or.inl rfl
      · rename_i hno
        rcases (h.fits i).active k ha with hc | ho | ⟨hc, -⟩
        · exact absurd hc ((h.fits i).alone id k hs ha)
        · exact absurd ⟨ha, ho⟩ hno
        · exact Or.inr hc

theorem Placed.takeOver (h : Placed p) (hs : (p.slots i).standby = some id) :
    Placed (p.takeOver i id) := by
  have hlink := link_takeOver h hs
  obtain ⟨hconnections, hfinished, hlength⟩ := frame_takeOver (p := p) i id
  refine .mk (fun j => ?_) (fun k hk => ?_) (fun j hj => ?_) (fun k => ?_)
    (count_takeOver h.count)
    (fun x hx => ?_)
  · by_cases hj : j = i
    · rw [hj]
      exact h.fits_takeOver hs
    · -- the links of other slots are left alone
      rw [slots_takeOver, if_neg hj]
      refine (h.fits j).keep (fun k hk => ?_) hlength.ge hfinished.symm.le rfl rfl rfl
      have hkslot := ((h.fits j).bound k hk).2
      rw [hlink, if_neg (fun he => hj ?_), if_neg (fun he => hj ?_)]
      · exact hkslot.symm.trans (h.slot_of_active he.1)
      · exact hkslot.symm.trans (he ▸ h.slot_of_standby hs)
  · rw [slot_takeOver h hs, links_takeOver hs]
    refine h.owned k (fun hclosed => hk ?_)
    rw [hlink, if_neg, if_neg, hclosed]
    · rintro ⟨-, ho⟩
      rw [hclosed] at ho
      cases ho
    · rintro rfl
      rw [(h.fits i).standby k hs] at hclosed
      cases hclosed
  · rw [hconnections] at hj
    have hlt := h.lt_connections (Slot.mem_standby hs)
    rw [slots_takeOver, if_neg (by omega)]
    exact h.outside j hj
  · rw [hlink]
    split
    · exact iff_of_false nofun (fun hc => nomatch hc.2)
    · split
      · rename_i ho
        -- it was open, so it was resolved before
        refine iff_of_false (fun hpending => ?_) (fun hc => nomatch hc.2)
        have hstate := ((h.pending k).mp hpending).2
        rw [ho.2] at hstate
        cases hstate
      · exact h.pending k
  · rw [placements_takeOver h hs] at hx
    rcases List.mem_append.mp hx with hx | hx
    · exact h.placements x hx
    · rw [List.mem_singleton.mp hx]
      exact ⟨id, rfl⟩

/-! ## What handlers keep -/

/-- Links connect, retire and are closed, in this order. -/
def rank : State → Nat
  | .connecting => 0
  | .opened => 1
  | .retiring => 2
  | .closed => 3

theorem closed_of_rank (hs : s = .closed) (h : rank s ≤ rank s') : s' = .closed := by
  subst hs
  revert h
  cases s' <;> decide

theorem ne_connecting_of_rank (hs : s ≠ .connecting) (h : rank s ≤ rank s') :
    s' ≠ .connecting := by
  revert hs h
  cases s <;> cases s' <;> decide

/-- The links in use were put there by opening them over none, or by a promotion. -/
def Logged (p : TcpPool) : Prop :=
  ∀ i id, (p.slots i).active = some id → Placement.opened i .active none id ∈ p.placements
    ∨ ∃ retired, Placement.promoted i retired (some (id, .opened)) ∈ p.placements

theorem Logged.mono (h : p.Logged) (hplacements : q.placements = p.placements)
    (hactive : ∀ i id, (q.slots i).active = some id → (p.slots i).active = some id) : q.Logged := by
  intro i id hid
  rw [hplacements]
  exact h i id (hactive i id hid)

/-- What a piece of the client that opens nothing makes of a pool: links are where they belong, and
slots that were live are. -/
structure Follows (p q : TcpPool) : Prop where
  placed : q.Placed
  connections : q.connections = p.connections
  finished : q.finished = p.finished
  live : p.finished = false → ∀ j, (p.slots j).Live → (q.slots j).Live
  empty : ∀ j, (p.slots j).links = [] → (q.slots j).links = []
  later : ∀ id, rank (p.link id).state ≤ rank (q.link id).state
  opens : q.pendingOpens ≤ p.pendingOpens
  logged : p.Logged → q.Logged

theorem Placed.follows (h : p.Placed) : Follows p p :=
  ⟨h, rfl, rfl, fun _ _ hj => hj, fun _ hj => hj, fun _ => le_rfl, le_rfl, fun hl => hl⟩

theorem Follows.trans {r : TcpPool} (h : Follows p q) (h' : Follows q r) : Follows p r where
  placed := h'.placed
  connections := h'.connections.trans h.connections
  finished := h'.finished.trans h.finished
  live := fun hf j hj => h'.live (h.finished.trans hf) j (h.live hf j hj)
  empty := fun j hj => h'.empty j (h.empty j hj)
  later := fun id => (h.later id).trans (h'.later id)
  opens := h'.opens.trans h.opens
  logged := fun hl => h'.logged (h.logged hl)

theorem links_arm (i : Nat) :
    (p.arm i).links = p.links ∧ (p.arm i).pendingOpens = p.pendingOpens
      ∧ (p.arm i).connections = p.connections ∧ (p.arm i).finished = p.finished
      ∧ (p.arm i).placements = p.placements := by
  unfold arm
  split <;> exact ⟨rfl, rfl, rfl, rfl, rfl⟩

theorem slots_arm (i j : Nat) :
    ((p.arm i).slots j).active = (p.slots j).active
      ∧ ((p.arm i).slots j).links = (p.slots j).links := by
  unfold arm
  split
  · exact ⟨rfl, rfl⟩
  · rw [slots_updateSlot]
    split <;> exact ⟨rfl, rfl⟩

theorem live_arm (hf : p.finished = false) (h : j ≠ i → (p.slots j).Live) :
    ((p.arm i).slots j).Live := by
  unfold arm
  rw [if_neg (by rw [hf]; exact Bool.false_ne_true), slots_updateSlot]
  split
  · exact Or.inr (Or.inr rfl)
  · rename_i hj
    exact h hj

/-- A retry is armed. -/
theorem Placed.follows_arm (h : p.Placed) (hi : i < p.connections) :
    Follows p (p.arm i) := by
  obtain ⟨hlinks, hopens, hconnections, hfinished, hplacements⟩ := links_arm (p := p) i
  refine ⟨h.arm hi, hconnections, hfinished, fun hf j hj => live_arm hf (fun _ => hj),
    fun j hj => (slots_arm i j).2.trans hj, fun id => ?_, hopens.le,
    fun hl => hl.mono hplacements (fun j id hid => (slots_arm i j).1.symm.trans hid)⟩
  unfold link
  rw [hlinks]

theorem pendingOpens_settle_le (id : Nat) (s : State) :
    (p.settle id s).pendingOpens ≤ p.pendingOpens := by
  unfold settle
  dsimp only
  split <;> omega

theorem later_settle_closed (id j : Nat) :
    rank (p.link j).state ≤ rank ((p.settle id .closed).link j).state := by
  rw [link_settle_closed]
  split
  · show _ ≤ 3
    cases (p.link j).state <;> decide
  · exact le_rfl

/-- A link is closed where it is. -/
theorem Placed.follows_shut (h : p.Placed)
    (hid : p.finished = true ∨ (p.link id).state = .retiring)
    (hnot : (p.link id).state ≠ .connecting) : Follows p (p.settle id .closed) :=
  ⟨h.shut hid hnot, rfl, rfl, fun _ _ hj => hj, fun _ hj => hj, later_settle_closed id,
    pendingOpens_settle_le id _, fun hl => hl.mono rfl (fun _ _ hj => hj)⟩

theorem links_drop_eq_nil (id : Nat) (h : (p.slots j).links = []) :
    ((p.drop id).slots j).links = [] := by
  rw [slots_drop]
  split
  · refine List.eq_nil_iff_forall_not_mem.mpr (fun k hk => ?_)
    have hmem := Slot.mem_links_of_without hk
    rw [h] at hmem
    cases hmem
  · exact h

theorem Logged.drop (h : p.Logged) (id : Nat) : (p.drop id).Logged := by
  refine h.mono rfl (fun i j hj => ?_)
  rw [slots_drop] at hj
  split at hj
  · exact (Slot.active_without hj).1
  · exact hj

/-- A link is closed and taken out of its slot, where it was not in use or nothing is any more. -/
theorem Placed.follows_drop (h : p.Placed) (hid : p.finished = true
    ∨ ((p.slots (p.link id).slot).active ≠ some id
      ∧ (p.slots (p.link id).slot).standby ≠ some id)) :
    Follows p (p.drop id) := by
  refine ⟨h.drop id, rfl, rfl, fun hf j hj => ?_, fun j => links_drop_eq_nil id,
    later_settle_closed id, pendingOpens_settle_le id .closed, fun hl => hl.drop id⟩
  rcases hid with hfinished | ⟨hna, hns⟩
  · rw [hf] at hfinished
    cases hfinished
  · rw [slots_drop]
    split
    · rename_i hslot
      unfold Slot.without
      rw [hslot, if_neg hna, if_neg hns]
      rw [hslot] at hj
      exact hj
    · exact hj

/-- A link is lost, and its slot opens another one. -/
theorem Placed.follows_drop_arm (h : p.Placed)
    (hid : id ∈ (p.slots (p.link id).slot).links) :
    Follows p ((p.drop id).arm (p.link id).slot) := by
  obtain ⟨hlinks, hopens, hconnections, hfinished, hplacements⟩ :=
    links_arm (p := p.drop id) (p.link id).slot
  refine ⟨(h.drop id).arm (h.lt_connections hid), hconnections, hfinished,
    fun hf j hj => live_arm hf (fun hne => ?_),
    fun j hj => (slots_arm _ j).2.trans (links_drop_eq_nil id hj), fun k => ?_,
    hopens.le.trans (pendingOpens_settle_le id .closed),
    fun hl => (hl.drop id).mono hplacements (fun j k hk => (slots_arm _ j).1.symm.trans hk)⟩
  · rw [slots_drop, if_neg hne]
    exact hj
  · refine (later_settle_closed id k).trans (le_of_eq ?_)
    exact congrArg (fun links : List Link => rank (links.getD k {}).state) hlinks.symm

/-- The link in use connects. -/
theorem Placed.follows_connect (h : p.Placed) (ha : (p.slots i).active = some id)
    (hc : (p.link id).state = .connecting) : Follows p (p.settle id .opened) := by
  refine ⟨h.connect ha hc, rfl, rfl, fun _ _ hj => hj, fun _ hj => hj, fun j => ?_,
    pendingOpens_settle_le id _, fun hl => hl.mono rfl (fun _ _ hj => hj)⟩
  rw [link_settle (lt_length_of_state (by rw [hc]; exact nofun))]
  split
  · rename_i hj
    rw [hj, hc]
    exact Nat.zero_le _
  · exact le_rfl

theorem Logged.takeOver (h : p.Logged) (hp : p.Placed)
    (hs : (p.slots i).standby = some id) : (p.takeOver i id).Logged := by
  intro j k hk
  rw [placements_takeOver hp hs]
  rw [slots_takeOver] at hk
  split at hk
  · rename_i hj
    rw [hj, ← Option.some.inj (hs.symm.trans hk)]
    exact Or.inr ⟨_, List.mem_append_right _ (List.mem_singleton.mpr rfl)⟩
  · exact (h j k hk).imp (List.mem_append_left _) (Exists.imp fun _ => List.mem_append_left _)

/-- The standby of a slot connects and takes over. -/
theorem Placed.follows_takeOver (h : p.Placed) (hs : (p.slots i).standby = some id) :
    Follows p (p.takeOver i id) := by
  obtain ⟨hconnections, hfinished, -⟩ := frame_takeOver (p := p) i id
  refine ⟨h.takeOver hs, hconnections, hfinished, fun _ j hj => ?_, fun j hj => ?_,
    fun j => ?_, ?_, fun hl => hl.takeOver h hs⟩
  · rw [slots_takeOver]
    split
    · exact Or.inl (by rw [hs]; rfl)
    · exact hj
  · rw [slots_takeOver]
    split
    · rename_i hji
      have hmem := Slot.mem_standby hs
      rw [← hji, hj] at hmem
      cases hmem
    · exact hj
  · rw [link_takeOver h hs]
    split
    · rename_i hj
      rw [hj, (h.fits i).standby id hs]
      exact Nat.zero_le _
    · split
      · rename_i ha
        rw [ha.2]
        exact Nat.le_succ 1
      · exact le_rfl
  · refine le_trans (le_of_eq ?_) (pendingOpens_settle_le id .opened)
    unfold TcpPool.takeOver
    split
    · rfl
    · split <;> rfl

section PlaceLogged

variable {i : Nat} {role : Role} (initial : Bool)

theorem live_place (j : Nat) (h : j ≠ i → (p.slots j).Live) :
    ((p.place i role initial).slots j).Live := by
  by_cases hj : j = i
  · rw [hj, slots_place_self]
    split
    · exact Or.inr (Or.inl rfl)
    · exact Or.inl rfl
  · rw [slots_place_of_ne initial hj]
    exact h hj

theorem Logged.place (h : p.Logged) (hfree : p.Free i role) : (p.place i role initial).Logged := by
  have hkept : ∀ j id, (p.slots j).active = some id →
      Placement.opened j .active none id ∈ (p.place i role initial).placements
        ∨ ∃ retired, Placement.promoted j retired (some (id, .opened))
          ∈ (p.place i role initial).placements := fun j id hid =>
    (h j id hid).imp (List.mem_append_left _) (Exists.imp fun _ => List.mem_append_left _)
  intro j id hid
  by_cases hj : j = i
  · subst hj
    rw [slots_place_self] at hid
    obtain ⟨rfl, ha, -⟩ | ⟨rfl, -⟩ := hfree.cases
    · refine Or.inl (List.mem_append_right _ (List.mem_singleton.mpr ?_))
      rw [← Option.some.inj hid, if_neg nofun, ha]
    · exact hkept j id hid
  · rw [slots_place_of_ne initial hj] at hid
    exact hkept j id hid

end PlaceLogged

end TcpPool

end Sortie.Engine
