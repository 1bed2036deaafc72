import Mathlib.Tactic.Ring
import Mathlib.Tactic.Linarith

/-!
# Integer division rounded to nearest, halfway cases away from zero

`roundNear n d` is the integer nearest to `n / d` for a positive divisor.  The file supplies the facts a
timeline kept in two tick units needs: the half-divisor error bound, monotonicity, exactness on
multiples, and the one-sided translation law `roundNear n d + k ≤ roundNear (n + k * d) d`.

Translation is one-sided because a halfway case rounds away from zero: `roundNear (-1) 2 = -1` while
`roundNear 1 2 = 1`, so moving by one whole divisor across zero moves the result by two.
-/

namespace Rounding

/-- The integer nearest to `n / d`, halfway cases away from zero (for `0 < d`). -/
def roundNear (n d : ℤ) : ℤ :=
  if 0 ≤ n then (2 * n + d) / (2 * d) else -((2 * (-n) + d) / (2 * d))

/-- The nonnegative branch as a two-sided bound. -/
theorem half_up_bounds {n d : ℤ} (hd : 0 < d) :
    2 * d * ((2 * n + d) / (2 * d)) ≤ 2 * n + d ∧
      2 * n + d < 2 * d * ((2 * n + d) / (2 * d)) + 2 * d := by
  have hmod := Int.mul_ediv_add_emod (2 * n + d) (2 * d)
  have hlo := Int.emod_nonneg (2 * n + d) (show 2 * d ≠ 0 by omega)
  have hhi := Int.emod_lt_of_pos (2 * n + d) (show 0 < 2 * d by omega)
  omega

/-- Rounding is odd. -/
theorem roundNear_neg {n d : ℤ} (hd : 0 < d) : roundNear (-n) d = -roundNear n d := by
  unfold roundNear
  rcases lt_trichotomy n 0 with hn | hn | hn
  · rw [if_pos (by omega), if_neg (by omega), neg_neg]
  · subst hn
    have hzero : d / (2 * d) = 0 := Int.ediv_eq_zero_of_lt hd.le (by omega)
    simp [hzero]
  · rw [if_neg (by omega), if_pos (by omega), neg_neg]

/-- **Error bound.**  The result is within half a divisor of the quotient. -/
theorem roundNear_error {n d : ℤ} (hd : 0 < d) :
    2 * (d * roundNear n d) ≤ 2 * n + d ∧ 2 * n - d ≤ 2 * (d * roundNear n d) := by
  unfold roundNear
  split
  · obtain ⟨hlo, hhi⟩ := half_up_bounds (n := n) hd
    constructor <;> nlinarith
  · obtain ⟨hlo, hhi⟩ := half_up_bounds (n := -n) hd
    constructor <;> nlinarith

theorem roundNear_abs_error {n d : ℤ} (hd : 0 < d) : 2 * |n - d * roundNear n d| ≤ d := by
  obtain ⟨hlo, hhi⟩ := roundNear_error (n := n) hd
  rcases abs_cases (n - d * roundNear n d) with ⟨h, -⟩ | ⟨h, -⟩ <;> linarith

theorem roundNear_nonneg {n d : ℤ} (hd : 0 < d) (hn : 0 ≤ n) : 0 ≤ roundNear n d := by
  rw [roundNear, if_pos hn]
  exact Int.ediv_nonneg (by omega) (by omega)

theorem roundNear_nonpos {n d : ℤ} (hd : 0 < d) (hn : n ≤ 0) : roundNear n d ≤ 0 := by
  have h := roundNear_nonneg hd (show 0 ≤ -n by omega)
  rw [roundNear_neg hd] at h
  omega

/-- **Rounding is monotone.** -/
theorem roundNear_mono {n m d : ℤ} (hd : 0 < d) (h : n ≤ m) : roundNear n d ≤ roundNear m d := by
  rcases le_or_gt 0 n with hn | hn
  · rw [roundNear, roundNear, if_pos hn, if_pos (hn.trans h)]
    exact Int.ediv_le_ediv (by omega) (by omega)
  rcases le_or_gt 0 m with hm | hm
  · exact (roundNear_nonpos hd hn.le).trans (roundNear_nonneg hd hm)
  · rw [roundNear, roundNear, if_neg (by omega), if_neg (by omega), neg_le_neg_iff]
    exact Int.ediv_le_ediv (by omega) (by omega)

theorem roundNear_mul_mul {n d k : ℤ} (hk : 0 < k) : roundNear (n * k) (d * k) = roundNear n d := by
  have hdiv : ∀ x : ℤ, (2 * (x * k) + d * k) / (2 * (d * k)) = (2 * x + d) / (2 * d) := by
    intro x
    rw [show 2 * (x * k) + d * k = k * (2 * x + d) by ring, show 2 * (d * k) = k * (2 * d) by ring,
      Int.mul_ediv_mul_of_pos _ _ hk]
  have hsign : 0 ≤ n * k ↔ 0 ≤ n := ⟨fun h => nonneg_of_mul_nonneg_left h hk, fun h => mul_nonneg h hk.le⟩
  by_cases hn : 0 ≤ n
  · rw [roundNear, roundNear, if_pos (hsign.mpr hn), if_pos hn, hdiv]
  · rw [roundNear, roundNear, if_neg (mt hsign.mp hn), if_neg hn, ← neg_mul, hdiv]

/-- **Rounding is monotone** across divisors. -/
theorem roundNear_mono_div {n m d e : ℤ} (hd : 0 < d) (he : 0 < e) (h : n * e ≤ m * d) :
    roundNear n d ≤ roundNear m e := by
  rw [← roundNear_mul_mul (n := n) he, ← roundNear_mul_mul (n := m) hd, mul_comm e d]
  exact roundNear_mono (mul_pos hd he) h

/-- Multiples of the divisor are exact. -/
theorem roundNear_mul_self {k d : ℤ} (hd : 0 < d) : roundNear (k * d) d = k := by
  obtain ⟨hlo, hhi⟩ := roundNear_error (n := k * d) hd
  have h1 : roundNear (k * d) d < k + 1 := by nlinarith
  have h2 : k - 1 < roundNear (k * d) d := by nlinarith
  omega

end Rounding
