/- Listeningway/Lib/Smoothing
   digest: Exponential smoothing with varying weights follows a target that settles. -/

import Mathlib.Analysis.SpecificLimits.Basic

/-!
Each value is a mean of the one before and of the current target. As long as the weight of the
target does not vanish, what is left of any start is forgotten.
-/

set_option autoImplicit false
set_option relaxedAutoImplicit false

namespace Listeningway.Lib.Smoothing

open Filter
open scoped Topology

variable {x target : ℕ → ℝ} {b limit : ℝ}

theorem dist_step {w old new goal e : ℝ} (least : b ≤ w) (most : w ≤ 1) (nonneg : 0 ≤ b)
    (step : new = (1 - w) * old + w * goal) (near : |goal - limit| ≤ e) :
    max 0 (|new - limit| - e) ≤ (1 - b) * max 0 (|old - limit| - e) := by
  have positive : 0 ≤ w := nonneg.trans least
  have rest : 0 ≤ 1 - w := sub_nonneg.mpr most
  have apart : |new - limit| ≤ (1 - w) * |old - limit| + w * |goal - limit| := by
    calc |new - limit| = |(1 - w) * (old - limit) + w * (goal - limit)| := by
          rw [step]
          ring_nf
      _ ≤ |(1 - w) * (old - limit)| + |w * (goal - limit)| := abs_add_le _ _
      _ = (1 - w) * |old - limit| + w * |goal - limit| := by
          rw [abs_mul, abs_mul, abs_of_nonneg rest, abs_of_nonneg positive]
  have excess : |new - limit| - e ≤ (1 - w) * (|old - limit| - e) := by
    have goals := mul_le_mul_of_nonneg_left near positive
    linarith
  have kept : 0 ≤ max 0 (|old - limit| - e) := le_max_left _ _
  apply max_le (mul_nonneg (by linarith) kept)
  calc |new - limit| - e ≤ (1 - w) * (|old - limit| - e) := excess
    _ ≤ (1 - w) * max 0 (|old - limit| - e) :=
        mul_le_mul_of_nonneg_left (le_max_right _ _) rest
    _ ≤ (1 - b) * max 0 (|old - limit| - e) :=
        mul_le_mul_of_nonneg_right (by linarith) kept

/-- The smoothed values settle where the target does. -/
theorem tendsto_smoothed (weight : ℕ → ℝ) (positive : 0 < b)
    (turn : ∀ᶠ n in atTop, b ≤ weight n ∧ weight n ≤ 1 ∧
      x (n + 1) = (1 - weight n) * x n + weight n * target n)
    (settles : Tendsto target atTop (𝓝 limit)) : Tendsto x atTop (𝓝 limit) := by
  rw [Metric.tendsto_atTop]
  intro e tolerance
  have near : ∀ᶠ n in atTop, |target n - limit| ≤ e / 2 := by
    filter_upwards [Metric.tendsto_nhds.mp settles (e / 2) (half_pos tolerance)] with n close
    exact (Real.dist_eq _ _ ▸ close).le
  obtain ⟨N, from_there⟩ := eventually_atTop.mp (turn.and near)
  -- from `N` on the excess over half the tolerance shrinks geometrically
  have decays (k : ℕ) : max 0 (|x (N + k) - limit| - e / 2) ≤
      (1 - b) ^ k * max 0 (|x N - limit| - e / 2) := by
    induction k with
    | zero => rw [pow_zero, one_mul, Nat.add_zero]
    | succ k ih =>
      obtain ⟨⟨least, most, step⟩, close⟩ := from_there (N + k) (Nat.le_add_right N k)
      have rest : 0 ≤ 1 - b := sub_nonneg.mpr (least.trans most)
      calc max 0 (|x (N + (k + 1)) - limit| - e / 2)
          ≤ (1 - b) * max 0 (|x (N + k) - limit| - e / 2) :=
            dist_step least most positive.le step close
        _ ≤ (1 - b) * ((1 - b) ^ k * max 0 (|x N - limit| - e / 2)) :=
            mul_le_mul_of_nonneg_left ih rest
        _ = (1 - b) ^ (k + 1) * max 0 (|x N - limit| - e / 2) := by ring
  have small : b ≤ 1 := by
    obtain ⟨⟨least, most, -⟩, -⟩ := from_there N le_rfl
    exact least.trans most
  have vanishes : Tendsto (fun k => (1 - b) ^ k * max 0 (|x N - limit| - e / 2)) atTop (𝓝 0) := by
    have powers : Tendsto (fun k => (1 - b) ^ k) atTop (𝓝 0) :=
      tendsto_pow_atTop_nhds_zero_of_lt_one (by linarith) (by linarith)
    simpa using powers.mul_const (max 0 (|x N - limit| - e / 2))
  obtain ⟨M, late⟩ := eventually_atTop.mp (vanishes.eventually_lt_const (half_pos tolerance))
  refine ⟨N + M, fun n after => ?_⟩
  obtain ⟨k, rfl⟩ := Nat.exists_eq_add_of_le (Nat.le_of_add_right_le after)
  have left := (le_max_right 0 _).trans_lt ((decays k).trans_lt (late k (by omega)))
  rw [Real.dist_eq]
  linarith

end Listeningway.Lib.Smoothing
