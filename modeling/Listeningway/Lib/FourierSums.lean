/- Listeningway/Lib/FourierSums
   digest: Sums of a finite Fourier basis, and the inverse transform of a power spectrum. -/

import Mathlib.Algebra.BigOperators.Field
import Mathlib.Analysis.SpecialFunctions.Trigonometric.Complex

/-!
Over a full period the cosines of an integer frequency cancel unless the period divides the
frequency. The inverse transform of a power spectrum is therefore the circular autocorrelation.
-/

set_option autoImplicit false
set_option relaxedAutoImplicit false

namespace Listeningway.Lib.FourierSums

/-- The angle of sample `k` at frequency `m`, with `n` samples to a period. -/
noncomputable def angle (n : ℕ) (m : ℤ) (k : ℕ) : ℝ := Real.pi * ((2 * m : ℤ) : ℝ) * k / n

variable {n : ℕ}

theorem angle_eq (m : ℤ) (k : ℕ) : angle n m k = 2 * Real.pi * m * k / n := by
  unfold angle
  push_cast
  ring

theorem angle_add (m m' : ℤ) (k : ℕ) : angle n (m + m') k = angle n m k + angle n m' k := by
  unfold angle
  push_cast
  ring

theorem angle_sub (m m' : ℤ) (k : ℕ) : angle n (m - m') k = angle n m k - angle n m' k := by
  unfold angle
  push_cast
  ring

theorem angle_of_dvd (positive : 0 < n) {m : ℤ} (whole : (n : ℤ) ∣ m) (k : ℕ) :
    ∃ q : ℤ, angle n m k = q * (2 * Real.pi) := by
  obtain ⟨q, rfl⟩ := whole
  have nonzero : (n : ℝ) ≠ 0 := Nat.cast_ne_zero.mpr positive.ne'
  refine ⟨q * k, ?_⟩
  unfold angle
  push_cast
  field_simp

theorem step_ne_turn (positive : 0 < n) {m : ℤ} (part : ¬(n : ℤ) ∣ m) (q : ℤ) :
    2 * Real.pi * m / n ≠ q * (2 * Real.pi) := by
  intro turn
  apply part
  have nonzero : (n : ℝ) ≠ 0 := Nat.cast_ne_zero.mpr positive.ne'
  have circle : (2 * Real.pi) ≠ 0 := by positivity
  have equal : (m : ℝ) = n * q := by
    rw [div_eq_iff nonzero] at turn
    apply mul_left_cancel₀ circle
    linarith
  exact ⟨q, by exact_mod_cast equal⟩

theorem sin_half_period (positive : 0 < n) (m : ℤ) :
    Real.sin (n * (2 * Real.pi * m / n) / 2) = 0 := by
  have nonzero : (n : ℝ) ≠ 0 := Nat.cast_ne_zero.mpr positive.ne'
  have half : n * (2 * Real.pi * m / n) / 2 = m * Real.pi := by field_simp
  rw [half, Real.sin_int_mul_pi]

theorem sum_cos (positive : 0 < n) (m : ℤ) :
    ∑ k : Fin n, Real.cos (angle n m k) = if (n : ℤ) ∣ m then (n : ℝ) else 0 := by
  split_ifs with whole
  · have one : ∀ k : Fin n, Real.cos (angle n m k) = 1 := by
      intro k
      obtain ⟨q, turns⟩ := angle_of_dvd positive whole k
      rw [turns, Real.cos_int_mul_two_pi]
    simp only [one, Finset.sum_const, Finset.card_univ, Fintype.card_fin, nsmul_eq_mul, mul_one]
  · have cancel := Real.sum_cos n (step_ne_turn positive whole) 0
    rw [sin_half_period positive, zero_mul, zero_div, Finset.sum_range] at cancel
    rw [← cancel]
    apply Finset.sum_congr rfl
    intro k _
    congr 1
    rw [angle_eq]
    ring

theorem sum_sin (positive : 0 < n) (m : ℤ) : ∑ k : Fin n, Real.sin (angle n m k) = 0 := by
  by_cases whole : (n : ℤ) ∣ m
  · apply Finset.sum_eq_zero
    intro k _
    obtain ⟨q, turns⟩ := angle_of_dvd positive whole k
    have turn := Real.sin_int_mul_two_pi_sub 0 q
    rw [sub_zero, Real.sin_zero, neg_zero] at turn
    rw [turns, turn]
  · have cancel := Real.sum_sin n (step_ne_turn positive whole) 0
    rw [sin_half_period positive, zero_mul, zero_div, Finset.sum_range] at cancel
    rw [← cancel]
    apply Finset.sum_congr rfl
    intro k _
    congr 1
    rw [angle_eq]
    ring

/-! ### Power spectra -/

/-- The squared magnitude of the transform of `x` at frequency `k`. -/
noncomputable def power (x : Fin n → ℝ) (k : ℕ) : ℝ :=
  ∑ j : Fin n, ∑ l : Fin n, x j * x l * Real.cos (angle n ((j : ℤ) - (l : ℤ)) k)

theorem power_eq (x : Fin n → ℝ) (k : ℕ) :
    power x k = (∑ j : Fin n, x j * Real.cos (angle n j k)) ^ 2 +
      (∑ j : Fin n, x j * Real.sin (angle n j k)) ^ 2 := by
  rw [sq, sq, Finset.sum_mul_sum, Finset.sum_mul_sum, ← Finset.sum_add_distrib]
  apply Finset.sum_congr rfl
  intro j _
  rw [← Finset.sum_add_distrib]
  apply Finset.sum_congr rfl
  intro l _
  rw [angle_sub, Real.cos_sub]
  ring

theorem sum_cos_mul_cos (positive : 0 < n) (m i : ℤ) :
    ∑ k : Fin n, Real.cos (angle n m k) * Real.cos (angle n i k) =
      ((if (n : ℤ) ∣ m + i then (n : ℝ) else 0) + if (n : ℤ) ∣ m - i then (n : ℝ) else 0) / 2 := by
  rw [← sum_cos positive, ← sum_cos positive, ← Finset.sum_add_distrib, Finset.sum_div]
  apply Finset.sum_congr rfl
  intro k _
  rw [angle_add, angle_sub, Real.cos_add, Real.cos_sub]
  ring

theorem sum_cos_mul_sin (positive : 0 < n) (m i : ℤ) :
    ∑ k : Fin n, Real.cos (angle n m k) * Real.sin (angle n i k) = 0 := by
  have parts : ∑ k : Fin n, Real.cos (angle n m k) * Real.sin (angle n i k) =
      (∑ k : Fin n, Real.sin (angle n (m + i) k) - ∑ k : Fin n, Real.sin (angle n (m - i) k)) /
        2 := by
    rw [← Finset.sum_sub_distrib, Finset.sum_div]
    apply Finset.sum_congr rfl
    intro k _
    rw [angle_add, angle_sub, Real.sin_add, Real.sin_sub]
    ring
  rw [parts, sum_sin positive, sum_sin positive, sub_zero, zero_div]

theorem sum_power_mul (x : Fin n → ℝ) (w : Fin n → ℝ) :
    ∑ k : Fin n, power x k * w k = ∑ j : Fin n, ∑ l : Fin n, x j * x l *
      ∑ k : Fin n, Real.cos (angle n ((j : ℤ) - (l : ℤ)) k) * w k := by
  simp only [power, Finset.sum_mul]
  rw [Finset.sum_comm]
  apply Finset.sum_congr rfl
  intro j _
  rw [Finset.sum_comm]
  apply Finset.sum_congr rfl
  intro l _
  rw [Finset.mul_sum]
  apply Finset.sum_congr rfl
  intro k _
  ring

theorem sum_power_mul_sin (positive : 0 < n) (x : Fin n → ℝ) (i : ℤ) :
    ∑ k : Fin n, power x k * Real.sin (angle n i k) = 0 := by
  rw [sum_power_mul]
  simp only [sum_cos_mul_sin positive, mul_zero, Finset.sum_const_zero]

/-- Its real part is the circular autocorrelation, taken in both directions. -/
theorem sum_power_mul_cos (positive : 0 < n) (x : Fin n → ℝ) (i : ℤ) :
    ∑ k : Fin n, power x k * Real.cos (angle n i k) =
      ∑ j : Fin n, ∑ l : Fin n, x j * x l *
        (((if (n : ℤ) ∣ (j : ℤ) - l + i then (n : ℝ) else 0) +
          if (n : ℤ) ∣ (j : ℤ) - l - i then (n : ℝ) else 0) / 2) := by
  rw [sum_power_mul]
  simp only [sum_cos_mul_cos positive]

end Listeningway.Lib.FourierSums
