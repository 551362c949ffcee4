import Mathlib.Algebra.BigOperators.Group.Finset.Basic
import Mathlib.Data.List.GetD

/-!
# A ledger of messages

Messages are offered one after another, and each comes with a callback. One that cannot
be sent is refused, and its callback is posted to run later. One that is sent is pending
until its answer is received or it is given up as lost, and either invokes its callback;
a message nobody waits for is done with when it is sent.

The ledger says nothing about why a message is refused or who holds the pending ones.
Whatever does, as long as it moves messages in these ways only, keeps the books balanced.
-/

/-- What became of the messages offered so far, which are numbered in the order of the offers. -/
@[ext]
structure Ledger where
  offered : Nat := 0
  refused : Nat := 0
  sent : Nat := 0
  /-- how many of those sent need no answer -/
  unawaited : Nat := 0
  received : Nat := 0
  lost : Nat := 0
  pending : Multiset Nat := 0
  /-- whose callback is due to run -/
  posted : Multiset Nat := 0
  /-- whose callback was invoked -/
  invoked : Multiset Nat := 0

namespace Ledger

variable {l l' : Ledger}

/-- The ways to move a message. -/
inductive Step (l : Ledger) : Ledger → Prop where
  | refuse : Step l { l with
      offered := l.offered + 1
      refused := l.refused + 1
      posted := l.offered ::ₘ l.posted }
  | send : Step l { l with
      offered := l.offered + 1
      sent := l.sent + 1
      pending := l.offered ::ₘ l.pending }
  | sendUnawaited : Step l { l with
      offered := l.offered + 1
      sent := l.sent + 1
      unawaited := l.unawaited + 1
      posted := l.offered ::ₘ l.posted }
  | receive {id : Nat} {rest : Multiset Nat} : l.pending = id ::ₘ rest → Step l { l with
      received := l.received + 1
      pending := rest
      invoked := id ::ₘ l.invoked }
  | lose {id : Nat} {rest : Multiset Nat} : l.pending = id ::ₘ rest → Step l { l with
      lost := l.lost + 1
      pending := rest
      invoked := id ::ₘ l.invoked }
  | run {id : Nat} {rest : Multiset Nat} : l.posted = id ::ₘ rest → Step l { l with
      posted := rest
      invoked := id ::ₘ l.invoked }

theorem Step.congr {l'' : Ledger} (h : Step l l') (he : l' = l'') : Step l l'' := by
  rw [← he]
  exact h

/-- Any number of moves. -/
def Steps : Ledger → Ledger → Prop := Relation.ReflTransGen Step

theorem Steps.refl (l : Ledger) : Steps l l := Relation.ReflTransGen.refl

theorem Steps.of_eq (h : l' = l) : Steps l l' := by
  rw [h]
  exact Steps.refl l

theorem Steps.single (h : Step l l') : Steps l l' := Relation.ReflTransGen.single h

theorem Steps.trans {l'' : Ledger} (h : Steps l l') (h' : Steps l' l'') : Steps l l'' :=
  Relation.ReflTransGen.trans h h'

/-- Every message is somewhere, once. -/
structure Balanced (l : Ledger) : Prop where
  offered : l.offered = l.sent + l.refused
  sent : l.sent = l.unawaited + l.received + l.lost + l.pending.card
  callbacks : l.invoked + l.posted + l.pending = Multiset.range l.offered

theorem balanced_empty : Balanced {} := ⟨rfl, rfl, rfl⟩

theorem Step.balanced (h : Step l l') (hb : Balanced l) : Balanced l' := by
  obtain ⟨hoffered, hsent, hcallbacks⟩ := hb
  cases h with
  | refuse =>
    refine ⟨by simp only; omega, hsent, ?_⟩
    rw [Multiset.range_succ, ← hcallbacks, Multiset.add_cons, Multiset.cons_add]
  | send =>
    refine ⟨by simp only; omega, by simp only [Multiset.card_cons]; omega, ?_⟩
    rw [Multiset.range_succ, ← hcallbacks, Multiset.add_cons]
  | sendUnawaited =>
    refine ⟨by simp only; omega, by simp only; omega, ?_⟩
    rw [Multiset.range_succ, ← hcallbacks, Multiset.add_cons, Multiset.cons_add]
  | receive hp | lose hp =>
    rw [hp, Multiset.card_cons] at hsent
    refine ⟨hoffered, by simp only; omega, ?_⟩
    rw [← hcallbacks, hp, Multiset.cons_add, Multiset.cons_add, Multiset.add_cons]
  | run hp =>
    refine ⟨hoffered, hsent, ?_⟩
    rw [← hcallbacks, hp, Multiset.cons_add, Multiset.add_cons]

theorem Steps.balanced (h : Steps l l') (hb : Balanced l) : Balanced l' := by
  induction h with
  | refl => exact hb
  | tail _ hs ih => exact hs.balanced ih

/-- The callback of a message was invoked, or is due, or waits for the message, and never twice. -/
theorem Balanced.once (h : Balanced l) {id : Nat} (hid : id < l.offered) :
    l.invoked.count id + l.posted.count id + l.pending.count id = 1 := by
  rw [← Multiset.count_add, ← Multiset.count_add, h.callbacks]
  exact Multiset.count_eq_one_of_mem (Multiset.nodup_range _) (Multiset.mem_range.mpr hid)

/-! ## Places that hold messages -/

section Held

variable {α : Type*} (g : α → Multiset Nat) {places : List α} {i : Nat} {f : α → α} {d : α}

/-- What is found first is what is erased. -/
theorem perm_eraseP_of_find {p : α → Bool} {a : α} (h : places.find? p = some a) :
    places.Perm (a :: places.eraseP p) := by
  obtain ⟨hp, before, after, rfl, hbefore⟩ := List.find?_eq_some_iff_append.mp h
  rw [List.eraseP_append_right _ (fun b hb => by simpa using hbefore b hb),
    List.eraseP_cons_of_pos hp]
  exact List.perm_middle

theorem getD_append_singleton (a : α) (j : Nat) :
    (places ++ [a]).getD j d = if j = places.length then a else places.getD j d := by
  split
  · rename_i hj
    rw [hj, List.getD_append_right _ _ _ _ le_rfl, Nat.sub_self]
    rfl
  · rename_i hj
    rcases Nat.lt_or_gt_of_ne hj with hlt | hgt
    · exact List.getD_append _ _ _ _ hlt
    · rw [List.getD_append_right _ _ _ _ (Nat.le_of_lt hgt), List.getD_eq_default,
        List.getD_eq_default _ _ (Nat.le_of_lt hgt)]
      rw [List.length_singleton]
      omega

theorem getD_modify_self (h : i < places.length) :
    (places.modify i f).getD i d = f (places.getD i d) := by
  rw [List.getD_eq_getElem?_getD, List.getD_eq_getElem?_getD, List.getElem?_modify,
    List.getElem?_eq_getElem h]
  exact if_pos rfl

theorem getD_modify_of_ne {j : Nat} (h : j ≠ i) :
    (places.modify i f).getD j d = places.getD j d := by
  rw [List.getD_eq_getElem?_getD, List.getD_eq_getElem?_getD, List.getElem?_modify]
  simp only [if_neg (Ne.symm h), id_map']

/-- What the places of a list hold together, when `g` says what one of them holds. -/
def held (places : List α) : Multiset Nat := (places.map g).sum

theorem held_append (places' : List α) :
    held g (places ++ places') = held g places + held g places' := by
  unfold held
  rw [List.map_append, List.sum_append]

/-- Changing one place changes what is held by what it holds. -/
theorem held_modify_add (h : i < places.length) :
    held g (places.modify i f) + g (places.getD i d) = held g places + g (f (places.getD i d)) := by
  induction places generalizing i with
  | nil => exact absurd h (Nat.not_lt_zero i)
  | cons a places ih =>
    cases i with
    | zero =>
      rw [List.modify_zero_cons]
      simp only [held, List.map_cons, List.sum_cons, List.getD_cons_zero]
      rw [add_right_comm, add_comm (g (f a)), add_right_comm, add_comm (g a)]
    | succ i =>
      have hi := ih (Nat.lt_of_succ_lt_succ h)
      rw [List.modify_succ_cons]
      simp only [held, List.map_cons, List.sum_cons, List.getD_cons_succ] at hi ⊢
      rw [add_assoc, hi, add_assoc]

theorem held_modify_same (h : ∀ a, g (f a) = g a) : held g (places.modify i f) = held g places := by
  by_cases hi : i < places.length
  · have := held_modify_add g (f := f) (d := places.get ⟨i, hi⟩) hi
    rw [h] at this
    exact add_right_cancel this
  · rw [List.modify_eq_self (Nat.le_of_not_lt hi)]

/-- A place takes a message. -/
theorem held_modify_cons {id : Nat} (hi : i < places.length)
    (h : g (f (places.getD i d)) = id ::ₘ g (places.getD i d)) :
    held g (places.modify i f) = id ::ₘ held g places := by
  have := held_modify_add g (f := f) (d := d) hi
  rw [h, Multiset.add_cons, ← Multiset.cons_add] at this
  exact add_right_cancel this

/-- A place lets go of a message. -/
theorem held_of_modify {id : Nat} (hi : i < places.length)
    (h : g (places.getD i d) = id ::ₘ g (f (places.getD i d))) :
    held g places = id ::ₘ held g (places.modify i f) := by
  have := held_modify_add g (f := f) (d := d) hi
  rw [h, Multiset.add_cons, ← Multiset.cons_add] at this
  exact (add_right_cancel this).symm

end Held

/-- Changing one of numbered places changes a sum over them by what it holds. -/
theorem sum_update_add {α M : Type*} [AddCommMonoid M] {n i : Nat} (g : α → M) (f : Nat → α) (a : α)
    (hi : i < n) :
    (∑ j ∈ Finset.range n, g (Function.update f i a j)) + g (f i)
      = (∑ j ∈ Finset.range n, g (f j)) + g a := by
  have hmem : i ∈ Finset.range n := Finset.mem_range.mpr hi
  rw [← Finset.add_sum_erase _ _ hmem, ← Finset.add_sum_erase _ (fun j => g (f j)) hmem,
    Function.update_self]
  have hrest : ∑ j ∈ (Finset.range n).erase i, g (Function.update f i a j)
      = ∑ j ∈ (Finset.range n).erase i, g (f j) :=
    Finset.sum_congr rfl fun j hj => by rw [Function.update_of_ne (Finset.ne_of_mem_erase hj)]
  rw [hrest, add_right_comm, add_comm (g a), add_right_comm, add_comm (g (f i))]

end Ledger
