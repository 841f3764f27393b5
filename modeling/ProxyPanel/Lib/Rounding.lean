import Mathlib.Algebra.Ring.Int.Defs
import Mathlib.Algebra.Ring.Nat
import Mathlib.Data.Nat.Size
import Mathlib.Tactic.Common

/-!
# Rounding to a number of significant bits

What a binary floating-point format of precision `p` does to a natural number inside
its exponent range: `roundBits p` keeps the first `p` bits and rounds to the nearest,
ties to even.  `roundBits_eq_self_iff` says which numbers come through unchanged.
-/

namespace ProxyPanel.Rounding

/-- A number with at most `p` significant bits. -/
def Representable (p n : Nat) : Prop := ∃ m e, m < 2 ^ p ∧ n = m * 2 ^ e

/-- The bits below the first `p`. -/
def excess (p n : Nat) : Nat := n.size - p

/-- The nearest number with at most `p` significant bits, ties to even. -/
def roundBits (p n : Nat) : Nat :=
  let unit := 2 ^ excess p n
  let quotient := n / unit
  let rest := n % unit
  if 2 * rest < unit ∨ 2 * rest = unit ∧ quotient % 2 = 0 then quotient * unit
  else (quotient + 1) * unit

/-- The first `p` bits are enough. -/
theorem representable_iff {p n : Nat} : Representable p n ↔ 2 ^ excess p n ∣ n := by
  constructor
  · rintro ⟨m, e, hm, rfl⟩
    have hsize : (m * 2 ^ e).size ≤ p + e := by
      rw [Nat.size_le, Nat.pow_add]
      exact Nat.mul_lt_mul_of_pos_right hm (Nat.two_pow_pos e)
    have hexcess : excess p (m * 2 ^ e) ≤ e := by
      rw [excess]
      omega
    exact Nat.dvd_trans (Nat.pow_dvd_pow 2 hexcess) (Nat.dvd_mul_left _ m)
  · intro h
    refine ⟨n / 2 ^ excess p n, excess p n, ?_, (Nat.div_mul_cancel h).symm⟩
    rw [Nat.div_lt_iff_lt_mul (Nat.two_pow_pos _), ← Nat.pow_add, ← Nat.size_le, excess]
    omega

instance (p n : Nat) : Decidable (Representable p n) :=
  decidable_of_iff (2 ^ excess p n ∣ n) representable_iff.symm

/-- The rounded number lies above or below by what is cut off. -/
theorem roundBits_cases (p n : Nat) :
    roundBits p n + n % 2 ^ excess p n = n ∨
      2 ^ excess p n ≤ 2 * (n % 2 ^ excess p n) ∧ n < roundBits p n := by
  have hparts := Nat.div_add_mod' n (2 ^ excess p n)
  have hrest := Nat.mod_lt n (Nat.two_pow_pos (excess p n))
  have hup : (n / 2 ^ excess p n + 1) * 2 ^ excess p n =
      n / 2 ^ excess p n * 2 ^ excess p n + 2 ^ excess p n := Nat.succ_mul _ _
  simp only [roundBits]
  split
  · exact Or.inl hparts
  · exact Or.inr ⟨by omega, by omega⟩

/-- **Rounding keeps a number if and only if it has at most `p` significant bits.** -/
theorem roundBits_eq_self_iff {p n : Nat} : roundBits p n = n ↔ Representable p n := by
  rw [representable_iff, Nat.dvd_iff_mod_eq_zero]
  have hpos := Nat.two_pow_pos (excess p n)
  have hcases := roundBits_cases p n
  constructor
  · intro h
    omega
  · intro h
    omega

end ProxyPanel.Rounding
