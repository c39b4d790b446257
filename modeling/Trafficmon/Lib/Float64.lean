import Mathlib.Algebra.Order.Ring.Nat
import Mathlib.Data.Int.Log
import Mathlib.Data.Rat.Floor
import Trafficmon.Lib.HalfEven

/-!
# Floating-point numbers

A `Float64` is a number of at most 53 bits, times a power of two; the sums and quotients of two are the nearest such
number, ties to even. Only finite numbers that are not negative are here, exponents have no bounds, and nothing is to
be divided by zero.
-/

open HalfEven

@[ext] structure Float64 where
  val : ℚ
  /-- A mantissa and an exponent. -/
  dyadic : ∃ (m : ℕ) (e : ℤ), m ≤ 2 ^ 53 ∧ val = m * 2 ^ e
deriving DecidableEq

namespace Float64

instance : Repr Float64 := ⟨fun x => reprPrec x.val⟩

instance : Zero Float64 := ⟨0, 0, 0, Nat.zero_le _, by simp⟩

instance : LinearOrder Float64 := LinearOrder.lift' val fun _ _ => Float64.ext

/-- `float64(n)` -/
def ofNat (n : ℕ) : Float64 where
  val := toFloat 53 n
  dyadic := by
    refine ⟨halfEven n (ulp 53 n), (n.log2 + 1 - 53 : ℕ), ?_, ?_⟩
    · calc halfEven n (ulp 53 n) ≤ halfEven (2 ^ 53 * ulp 53 n) (ulp 53 n) := halfEven_mono _ (le_ulp_mul 53 n)
        _ = 2 ^ 53 := halfEven_mul (ulp_pos 53 n) _
    · rw [toFloat, ulp]
      push_cast
      rfl

/-- The place of the last of 53 bits. -/
def lastPlace (q : ℚ) : ℤ := Int.log 2 q - 52

def mantissa (q : ℚ) : ℕ := halfEven (q / 2 ^ lastPlace q).num.natAbs (q / 2 ^ lastPlace q).den

theorem mantissa_le {q : ℚ} (hq : 0 ≤ q) : mantissa q ≤ 2 ^ 53 := by
  have hplace : (0 : ℚ) < 2 ^ lastPlace q := zpow_pos two_pos _
  set x := q / 2 ^ lastPlace q with hx
  have hlt : x < 2 ^ 53 := by
    have hexp : ((53 : ℕ) : ℤ) + lastPlace q = Int.log 2 q + 1 := by
      rw [lastPlace]
      push_cast
      ring
    rw [hx, div_lt_iff₀ hplace, ← zpow_natCast, ← zpow_add₀ two_ne_zero, hexp]
    exact_mod_cast Int.lt_zpow_succ_log_self one_lt_two q
  have hnum : x.num.natAbs ≤ 2 ^ 53 * x.den := by
    have hpos : 0 ≤ x.num := Rat.num_nonneg.2 (div_nonneg hq hplace.le)
    have hmul : x * x.den < 2 ^ 53 * x.den := mul_lt_mul_of_pos_right hlt (by exact_mod_cast x.den_pos)
    rw [Rat.mul_den_eq_num] at hmul
    have hint : x.num < 2 ^ 53 * x.den := by exact_mod_cast hmul
    omega
  calc mantissa q = halfEven x.num.natAbs x.den := by rw [mantissa, ← hx]
    _ ≤ halfEven (2 ^ 53 * x.den) x.den := halfEven_mono _ hnum
    _ = 2 ^ 53 := halfEven_mul x.den_pos _

/-- The nearest float. -/
def round (q : ℚ) (hq : 0 ≤ q) : Float64 := ⟨mantissa q * 2 ^ lastPlace q, mantissa q, lastPlace q, mantissa_le hq, rfl⟩

theorem val_nonneg (x : Float64) : 0 ≤ x.val := by
  obtain ⟨m, e, -, h⟩ := x.dyadic
  rw [h]
  exact mul_nonneg m.cast_nonneg (zpow_nonneg two_pos.le e)

protected theorem zero_le (x : Float64) : 0 ≤ x := x.val_nonneg

instance : Add Float64 := ⟨fun x y => round (x.val + y.val) (add_nonneg x.val_nonneg y.val_nonneg)⟩

instance : Div Float64 := ⟨fun x y => round (x.val / y.val) (div_nonneg x.val_nonneg y.val_nonneg)⟩

/-- `0.1 + 0.2` is not `0.3`. -/
example : ofNat 1 / ofNat 10 + ofNat 2 / ofNat 10 ≠ ofNat 3 / ofNat 10 := by decide +kernel

end Float64
