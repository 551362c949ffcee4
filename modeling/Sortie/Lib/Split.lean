import Mathlib.Algebra.Order.BigOperators.Group.List
import Mathlib.Algebra.Order.Ring.Nat

/-!
# Splitting a total into nearly equal parts

`part total n i` is what the `i`-th of `n` receives when a total is dealt out evenly
and the remainder goes, one each, to the first ones.
-/

namespace Split

variable {total n d : Nat}

/-- The `i`-th of `n` nearly equal parts. -/
def part (total n i : Nat) : Nat := total / n + if i < total % n then 1 else 0

/-- Of the first `m` entries, those below `r` are one larger. -/
theorem sum_step (b r m : Nat) :
    ((List.range m).map fun i => b + if i < r then 1 else 0).sum = m * b + min m r := by
  induction m with
  | zero => simp
  | succ m ih =>
    rw [List.range_succ, List.map_append, List.sum_append, ih, Nat.succ_mul]
    simp only [List.map_cons, List.map_nil, List.sum_cons, List.sum_nil]
    split <;> omega

/-- **Nothing is lost.** -/
theorem sum_part (hn : 0 < n) : ((List.range n).map (part total n)).sum = total := by
  have h := sum_step (total / n) (total % n) n
  have hlt := Nat.mod_lt total hn
  have hdiv := Nat.div_add_mod total n
  unfold part
  omega

theorem part_pos (hn : 0 < n) (h : n ≤ total) (i : Nat) : 0 < part total n i := by
  have := Nat.div_pos h hn
  unfold part
  omega

/-- Two parts differ by at most one. -/
theorem part_le_succ (i j : Nat) : part total n i ≤ part total n j + 1 := by
  unfold part
  split <;> omega

/-- The larger parts come first. -/
theorem part_antitone {i j : Nat} (h : i ≤ j) : part total n j ≤ part total n i := by
  unfold part
  split <;> split <;> omega

/-- A number divides every part only when the parts are equal, unless it is 1. -/
theorem dvd_parts_iff (hn : 0 < n) :
    (∀ i < n, d ∣ part total n i) ↔ d = 1 ∨ n * d ∣ total := by
  have hdiv := Nat.div_add_mod total n
  have hlt := Nat.mod_lt total hn
  constructor
  · intro h
    rcases Nat.eq_zero_or_pos (total % n) with hr | hr
    · right
      have h0 := h 0 hn
      unfold part at h0
      rw [if_neg (by omega), Nat.add_zero] at h0
      have : total = n * (total / n) := by omega
      rw [this]
      exact Nat.mul_dvd_mul_left n h0
    · left
      -- the first part is one larger than the part just past the remainder
      have h0 := h 0 hn
      have h1 := h (total % n) hlt
      unfold part at h0 h1
      rw [if_pos hr] at h0
      rw [if_neg (Nat.lt_irrefl _), Nat.add_zero] at h1
      exact Nat.dvd_one.mp ((Nat.dvd_add_right h1).mp h0)
  · rintro (rfl | h) i hi
    · exact one_dvd _
    · obtain ⟨k, hk⟩ := h
      have hbase : total / n = d * k := by
        rw [hk, Nat.mul_assoc, Nat.mul_div_cancel_left _ hn]
      have hrem : total % n = 0 := by
        rw [hk, Nat.mul_assoc, Nat.mul_mod_right]
      unfold part
      rw [hbase, hrem, if_neg (Nat.not_lt_zero i), Nat.add_zero]
      exact Nat.dvd_mul_right d k

/-- Sums of terms in order are equal only when the terms are. -/
theorem sum_map_eq_iff_of_le {α : Type} {f g : α → Nat} : ∀ {l : List α},
    (∀ a ∈ l, f a ≤ g a) → ((l.map f).sum = (l.map g).sum ↔ ∀ a ∈ l, f a = g a) := by
  intro l
  induction l with
  | nil => intro _; simp
  | cons a l ih =>
    intro h
    have ha := h a List.mem_cons_self
    have hrest : ∀ b ∈ l, f b ≤ g b := fun b hb => h b (List.mem_cons_of_mem _ hb)
    have hle : (l.map f).sum ≤ (l.map g).sum := List.sum_le_sum hrest
    rw [List.map_cons, List.map_cons, List.sum_cons, List.sum_cons, List.forall_mem_cons,
      ← ih hrest]
    omega

end Split
