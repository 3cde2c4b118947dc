/-
# Natural numbers as IEEE 754 doubles

A double has a significand of 53 bits.  The natural numbers it can hold are those below `2 ^ 53`
times a power of two; any other number is rounded to the nearest of these, and a tie goes to the
even significand.  Overflow is left out: the numbers here are thought to be below `2 ^ 1023`.

* `Representable` says which numbers a double holds, `nearest` is the rounding.
* `representable_nearest` and `nearest_eq_iff`: the result is always representable, and the
  representable numbers are those that survive.
* `representable_iff_dvd` decides it.
-/
import Mathlib.Algebra.Order.Ring.Nat
import Mathlib.Tactic.Ring

namespace Binary64

/-! ## 1. Which numbers a double holds -/

/-- **A significand of 53 bits, scaled.** -/
def Representable (n : Nat) : Prop := ∃ m k, m < 2 ^ 53 ∧ n = m * 2 ^ k

/-- The binary exponent of the last bit of a double of this size. -/
def shift (n : Nat) : Nat := n.log2 - 52

/-- **What is left after the last bit is at most 53 bits wide.** -/
theorem div_shift_lt (n : Nat) : n / 2 ^ shift n < 2 ^ 53 := by
  rw [Nat.div_lt_iff_lt_mul (Nat.two_pow_pos _), ← Nat.pow_add]
  have hexp : n.log2 + 1 ≤ 53 + shift n := by
    rw [shift]
    omega
  exact Nat.lt_log2_self.trans_le (Nat.pow_le_pow_right (by decide) hexp)

/-- A significand that needs no more bits has its last bit no higher. -/
theorem shift_mul_le {m k : Nat} (hm : m < 2 ^ 53) : shift (m * 2 ^ k) ≤ k := by
  by_cases h0 : m * 2 ^ k = 0
  · rw [shift, h0, Nat.log2_zero]
    exact Nat.zero_le k
  · have hlt : m * 2 ^ k < 2 ^ (53 + k) := by
      rw [Nat.pow_add]
      exact Nat.mul_lt_mul_of_pos_right hm (Nat.two_pow_pos k)
    have hlog := (Nat.log2_lt h0).mpr hlt
    rw [shift]
    omega

/-- **Representable numbers are the multiples of their own last bit.** -/
theorem representable_iff_dvd {n : Nat} : Representable n ↔ 2 ^ shift n ∣ n := by
  constructor
  · rintro ⟨m, k, hm, rfl⟩
    exact (Nat.pow_dvd_pow 2 (shift_mul_le hm)).trans (Nat.dvd_mul_left _ _)
  · intro h
    exact ⟨n / 2 ^ shift n, shift n, div_shift_lt n, (Nat.div_mul_cancel h).symm⟩

instance (n : Nat) : Decidable (Representable n) :=
  decidable_of_iff _ representable_iff_dvd.symm

/-! ## 2. Rounding -/

/-- **Round to nearest, ties to even.** -/
def nearest (n : Nat) : Nat :=
  let q := n / 2 ^ shift n
  let r := n % 2 ^ shift n
  if 2 ^ shift n < 2 * r ∨ 2 ^ shift n = 2 * r ∧ q % 2 = 1 then (q + 1) * 2 ^ shift n
  else q * 2 ^ shift n

/-- A multiple of the last bit is left alone. -/
theorem nearest_of_dvd {n : Nat} (h : 2 ^ shift n ∣ n) : nearest n = n := by
  have hpos := Nat.two_pow_pos (shift n)
  have hr : n % 2 ^ shift n = 0 := Nat.mod_eq_zero_of_dvd h
  rw [nearest]
  rw [hr, if_neg (by omega), Nat.div_mul_cancel h]

/-- **The result of a rounding is a double**, also where it carries into the next exponent. -/
theorem representable_nearest (n : Nat) : Representable (nearest n) := by
  have hq := div_shift_lt n
  rw [nearest]
  split
  · by_cases hcarry : n / 2 ^ shift n + 1 = 2 ^ 53
    · refine ⟨1, 53 + shift n, by decide, ?_⟩
      rw [hcarry, Nat.one_mul, Nat.pow_add]
    · exact ⟨_, _, by omega, rfl⟩
  · exact ⟨_, _, hq, rfl⟩

/-- **What survives the rounding is what a double holds.** -/
theorem nearest_eq_iff {n : Nat} : nearest n = n ↔ Representable n := by
  constructor
  · intro h
    rw [← h]
    exact representable_nearest n
  · exact fun h => nearest_of_dvd (representable_iff_dvd.mp h)

/-- The first number that does not survive is `2 ^ 53 + 1`, a tie. -/
example : nearest (2 ^ 53) = 2 ^ 53 ∧ nearest (2 ^ 53 + 1) = 2 ^ 53 ∧
    nearest (2 ^ 53 + 3) = 2 ^ 53 + 4 ∧ nearest (2 ^ 64 - 1) = 2 ^ 64 := by decide

end Binary64
