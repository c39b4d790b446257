import Mathlib.Algebra.Order.Ring.Nat
import Mathlib.Tactic.Linarith
import Mathlib.Tactic.Ring

/-!
# Rounding to the nearest, ties to even

`halfEven a b` is the quotient of two numbers, rounded to a number; `toFloat p n` is a number as a binary
floating-point format with a mantissa of `p` bits holds it. Both are off by half a place at most, and both keep the
order.
-/

namespace HalfEven

/-- `a / b` rounded. -/
def halfEven (a b : ℕ) : ℕ :=
  if 2 * (a % b) < b ∨ 2 * (a % b) = b ∧ a / b % 2 = 0 then a / b else a / b + 1

theorem halfEven_near {b : ℕ} (hb : 0 < b) (a : ℕ) :
    2 * a ≤ 2 * (halfEven a b * b) + b ∧ 2 * (halfEven a b * b) ≤ 2 * a + b := by
  have hdiv := Nat.div_add_mod' a b
  have hmod := Nat.mod_lt a hb
  unfold halfEven
  split_ifs with hdown
  · omega
  · rw [Nat.add_one_mul (a / b) b]
    omega

theorem halfEven_mono (b : ℕ) {a a' : ℕ} (h : a ≤ a') : halfEven a b ≤ halfEven a' b := by
  have hquot : a / b ≤ a' / b := Nat.div_le_div_right h
  rcases hquot.eq_or_lt with heq | hlt
  · -- between the same two numbers the remainders decide
    have hdiv := Nat.div_add_mod a b
    have hdiv' := Nat.div_add_mod a' b
    rw [← heq] at hdiv'
    unfold halfEven
    rw [← heq]
    split_ifs <;> omega
  · unfold halfEven
    split_ifs <;> omega

theorem halfEven_mul {b : ℕ} (hb : 0 < b) (q : ℕ) : halfEven (q * b) b = q := by
  rw [halfEven, Nat.mul_mod_left, Nat.mul_div_cancel q hb, if_pos (.inl hb)]

/-- The place of the last bit that is kept. -/
def ulp (p n : ℕ) : ℕ := 2 ^ (n.log2 + 1 - p)

def toFloat (p n : ℕ) : ℕ := halfEven n (ulp p n) * ulp p n

theorem ulp_pos (p n : ℕ) : 0 < ulp p n := Nat.two_pow_pos _

theorem le_ulp_mul (p n : ℕ) : n ≤ 2 ^ p * ulp p n := by
  rw [ulp, ← pow_add]
  exact Nat.lt_log2_self.le.trans (Nat.pow_le_pow_right (by decide) (by omega))

/-- What is lost is less than a bit behind the mantissa. -/
theorem toFloat_near {p : ℕ} (hp : 0 < p) (n : ℕ) :
    2 ^ p * n ≤ 2 ^ p * toFloat p n + n ∧ 2 ^ p * toFloat p n ≤ 2 ^ p * n + n := by
  obtain ⟨q, rfl⟩ := Nat.exists_eq_add_of_lt hp
  rw [zero_add]
  by_cases hsmall : n.log2 + 1 ≤ q + 1
  · -- every bit is kept
    have hone : ulp (q + 1) n = 1 := by rw [ulp, Nat.sub_eq_zero_of_le hsmall, pow_zero]
    have hexact : toFloat (q + 1) n = n := by
      rw [toFloat, hone]
      simpa using halfEven_mul Nat.one_pos n
    rw [hexact]
    omega
  · have hne : n ≠ 0 := by
      rintro rfl
      rw [Nat.log2_zero] at hsmall
      omega
    have hulp : 2 ^ q * ulp (q + 1) n ≤ n := by
      rw [ulp, ← pow_add, show q + (n.log2 + 1 - (q + 1)) = n.log2 by omega]
      exact Nat.log2_self_le hne
    obtain ⟨hlow, hhigh⟩ := halfEven_near (ulp_pos (q + 1) n) n
    have hlow' := Nat.mul_le_mul_left (2 ^ q) hlow
    have hhigh' := Nat.mul_le_mul_left (2 ^ q) hhigh
    rw [← toFloat] at hlow' hhigh'
    rw [pow_succ]
    constructor
    · linarith
    · linarith

/-- A power of two is not rounded. -/
theorem halfEven_pow {e k : ℕ} (h : e ≤ k) : halfEven (2 ^ k) (2 ^ e) * 2 ^ e = 2 ^ k := by
  have hpow : 2 ^ k = 2 ^ (k - e) * 2 ^ e := by rw [← pow_add, Nat.sub_add_cancel h]
  rw [hpow, halfEven_mul (Nat.two_pow_pos e)]

theorem toFloat_mono {p : ℕ} (hp : 0 < p) {n m : ℕ} (h : n ≤ m) : toFloat p n ≤ toFloat p m := by
  rcases eq_or_ne n 0 with rfl | hn
  · have hzero : toFloat p 0 = 0 := by
      have := halfEven_mul (ulp_pos p 0) 0
      rw [zero_mul] at this
      rw [toFloat, this, zero_mul]
    rw [hzero]
    exact Nat.zero_le _
  have hm : m ≠ 0 := by omega
  have hlog : n.log2 ≤ m.log2 := (Nat.le_log2 hm).2 ((Nat.log2_self_le hn).trans h)
  rcases hlog.eq_or_lt with heq | hlt
  · have hulp : ulp p m = ulp p n := by rw [ulp, ulp, heq]
    rw [toFloat, toFloat, hulp]
    exact Nat.mul_le_mul_right _ (halfEven_mono _ h)
  · -- a power of two lies between them
    calc toFloat p n ≤ halfEven (2 ^ (n.log2 + 1)) (ulp p n) * ulp p n :=
          Nat.mul_le_mul_right _ (halfEven_mono _ Nat.lt_log2_self.le)
      _ = 2 ^ (n.log2 + 1) := halfEven_pow (by omega)
      _ ≤ 2 ^ m.log2 := Nat.pow_le_pow_right (by decide) hlt
      _ = halfEven (2 ^ m.log2) (ulp p m) * ulp p m := (halfEven_pow (by omega)).symm
      _ ≤ toFloat p m := Nat.mul_le_mul_right _ (halfEven_mono _ (Nat.log2_self_le hm))

end HalfEven
