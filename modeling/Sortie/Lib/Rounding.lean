import Mathlib.Analysis.Real.Sqrt

/-!
# Rounding rational numbers to integers

`roundHalfAway` is the rounding of C's `round`: to the nearest integer, halves away
from zero. `ceilSqrt` is the least integer whose square reaches a rational number,
the square root rounded up, computed without a real number in sight.

Both come with the rule that inverts them: when does the rounded value reach `n`?
-/

namespace Rounding

/-- The nearest integer; a half goes away from zero. -/
def roundHalfAway (x : ℚ) : Int := if 0 ≤ x then ⌊x + 1 / 2⌋ else -⌊-x + 1 / 2⌋

theorem roundHalfAway_of_nonneg {x : ℚ} (hx : 0 ≤ x) : roundHalfAway x = ⌊x + 1 / 2⌋ :=
  if_pos hx

/-- **A rounded value reaches `n` from `n - 1/2` on.** -/
theorem le_roundHalfAway {x : ℚ} (hx : 0 ≤ x) {n : Int} :
    n ≤ roundHalfAway x ↔ (n : ℚ) - 1 / 2 ≤ x := by
  rw [roundHalfAway_of_nonneg hx, Int.le_floor]
  constructor <;> intro h <;> linarith

theorem roundHalfAway_nonneg {x : ℚ} (hx : 0 ≤ x) : 0 ≤ roundHalfAway x := by
  rw [le_roundHalfAway hx]
  linarith

theorem roundHalfAway_mono {x y : ℚ} (hx : 0 ≤ x) (hxy : x ≤ y) :
    roundHalfAway x ≤ roundHalfAway y := by
  rw [le_roundHalfAway (hx.trans hxy)]
  exact ((le_roundHalfAway hx).mp le_rfl).trans hxy

/-- The square root of a rational number, rounded up. -/
def ceilSqrt (q : ℚ) : Nat :=
  let m := ⌈q⌉₊
  if m.sqrt * m.sqrt = m then m.sqrt else m.sqrt + 1

/-- **The root rounded up is the least number whose square reaches `q`.** -/
theorem ceilSqrt_le {q : ℚ} {n : Nat} : ceilSqrt q ≤ n ↔ q ≤ (n : ℚ) ^ 2 := by
  have hsq : q ≤ (n : ℚ) ^ 2 ↔ ⌈q⌉₊ ≤ n * n := by
    rw [Nat.ceil_le]
    push_cast
    rw [sq]
  rw [hsq]
  unfold ceilSqrt
  set m := ⌈q⌉₊
  by_cases hm : m.sqrt * m.sqrt = m
  · rw [if_pos hm]
    -- a perfect square: comparing the roots is comparing the squares
    conv_rhs => rw [← hm]
    exact Nat.mul_self_le_mul_self_iff.symm
  · rw [if_neg hm]
    have hlt : m.sqrt * m.sqrt < m := lt_of_le_of_ne (Nat.sqrt_le m) hm
    constructor
    · intro h
      calc m ≤ (m.sqrt + 1) * (m.sqrt + 1) := Nat.le_of_lt (Nat.lt_succ_sqrt m)
        _ ≤ n * n := Nat.mul_self_le_mul_self h
    · intro h
      by_contra hn
      have hle : n ≤ m.sqrt := by omega
      have : n * n ≤ m.sqrt * m.sqrt := Nat.mul_self_le_mul_self hle
      omega

/-- It is the real square root rounded up. -/
theorem ceilSqrt_eq {q : ℚ} : (ceilSqrt q : ℤ) = ⌈Real.sqrt (q : ℝ)⌉ := by
  have hroot : ∀ n : Nat, Real.sqrt (q : ℝ) ≤ n ↔ ceilSqrt q ≤ n := by
    intro n
    rw [Real.sqrt_le_left (Nat.cast_nonneg n), ceilSqrt_le]
    exact_mod_cast Iff.rfl
  obtain ⟨m, hm⟩ := Int.eq_ofNat_of_zero_le (Int.ceil_nonneg (Real.sqrt_nonneg (q : ℝ)))
  rw [hm]
  apply le_antisymm
  · have h : Real.sqrt (q : ℝ) ≤ (m : ℕ) := by
      have := Int.le_ceil (Real.sqrt (q : ℝ))
      rw [hm] at this
      exact_mod_cast this
    exact_mod_cast (hroot m).mp h
  · rw [← hm, Int.ceil_le]
    exact_mod_cast (hroot _).mpr le_rfl

end Rounding
