/- Listeningway/Lib/Recursion
   digest: Linear recursions of the first and second order: stable ones answer a bounded drive
     with a bounded output. -/

import Mathlib.Analysis.Complex.Polynomial.Basic
import Mathlib.Tactic.Linarith

/-!
A recursion `y = u - a₁ y₁ - a₂ y₂` is one of the first order in `y₁ - p y₂`, where `p` is a root
of its characteristic polynomial, and its output is one of the first order in that.
-/

set_option autoImplicit false
set_option relaxedAutoImplicit false

namespace Listeningway.Lib.Recursion

/-! ### Roots -/

/-- All roots of `z² + a₁ z + a₂` lie strictly inside the unit circle. -/
def Stable (a₁ a₂ : ℝ) : Prop := ∀ z : ℂ, z ^ 2 + a₁ * z + a₂ = 0 → ‖z‖ < 1

section Roots

variable {a₁ a₂ : ℝ}

theorem abs_lt_one_of_root (product : |a₂| < 1) (sum : |a₁| < 1 + a₂) {x : ℝ}
    (root : x ^ 2 + a₁ * x + a₂ = 0) : |x| < 1 := by
  obtain ⟨low, high⟩ := abs_lt.mp product
  obtain ⟨left, right⟩ := abs_lt.mp sum
  rw [abs_lt]
  constructor
  · by_contra far
    nlinarith [mul_nonneg (by linarith : 0 ≤ -1 - x) (by linarith : 0 ≤ a₂ - x)]
  · by_contra far
    nlinarith [mul_nonneg (by linarith : 0 ≤ x - 1) (by linarith : 0 ≤ x - a₂)]

theorem stable_of_jury (product : |a₂| < 1) (sum : |a₁| < 1 + a₂) : Stable a₁ a₂ := by
  intro z root
  have real := congrArg Complex.re root
  have imaginary := congrArg Complex.im root
  simp only [pow_two, Complex.add_re, Complex.mul_re, Complex.ofReal_re, Complex.ofReal_im,
    Complex.zero_re, Complex.add_im, Complex.mul_im, Complex.zero_im, zero_mul, sub_zero,
    add_zero] at real imaginary
  by_cases flat : z.im = 0
  · have onLine : z = (z.re : ℂ) := Complex.ext rfl flat
    rw [onLine, Complex.norm_real, Real.norm_eq_abs]
    apply abs_lt_one_of_root product sum
    rw [flat] at real
    linarith
  · -- the roots are conjugate, their product is the square of their norm
    have centre : 2 * z.re + a₁ = 0 := by
      apply (mul_eq_zero.mp _).resolve_left flat
      linarith
    have square : ‖z‖ ^ 2 = a₂ := by
      rw [← Complex.normSq_eq_norm_sq, Complex.normSq_apply]
      have slope : a₁ = -(2 * z.re) := by linarith
      rw [slope] at real
      linarith
    have below : ‖z‖ ^ 2 < 1 := by
      rw [square]
      exact (abs_lt.mp product).2
    nlinarith [norm_nonneg z]

theorem exists_roots (a₁ a₂ : ℝ) :
    ∃ p q : ℂ, (a₁ : ℂ) = -(p + q) ∧ (a₂ : ℂ) = p * q := by
  obtain ⟨s, square⟩ := IsAlgClosed.exists_eq_mul_self ((a₁ : ℂ) ^ 2 - 4 * a₂)
  refine ⟨(-a₁ + s) / 2, (-a₁ - s) / 2, by ring, ?_⟩
  linear_combination -(1 / 4 : ℂ) * square

theorem Stable.exists_roots (stable : Stable a₁ a₂) :
    ∃ p q : ℂ, ‖p‖ < 1 ∧ ‖q‖ < 1 ∧ (a₁ : ℂ) = -(p + q) ∧ (a₂ : ℂ) = p * q := by
  obtain ⟨p, q, sum, product⟩ := Recursion.exists_roots a₁ a₂
  refine ⟨p, q, stable p ?_, stable q ?_, sum, product⟩
  · rw [sum, product]
    ring
  · rw [sum, product]
    ring

end Roots

/-! ### Bounded drives -/

theorem norm_add_mul_le {𝕜 : Type*} [NormedField 𝕜] {r u z : 𝕜} {U : ℝ} (inside : ‖r‖ < 1)
    (drive : ‖u‖ ≤ U) (here : ‖z‖ ≤ U / (1 - ‖r‖)) : ‖u + r * z‖ ≤ U / (1 - ‖r‖) := by
  have room : 0 < 1 - ‖r‖ := by linarith
  have level : U + ‖r‖ * (U / (1 - ‖r‖)) = U / (1 - ‖r‖) := by
    field_simp
    ring
  calc ‖u + r * z‖ ≤ ‖u‖ + ‖r‖ * ‖z‖ := (norm_add_le _ _).trans_eq (by rw [norm_mul])
    _ ≤ U + ‖r‖ * (U / (1 - ‖r‖)) :=
      add_le_add drive (mul_le_mul_of_nonneg_left here (norm_nonneg r))
    _ = U / (1 - ‖r‖) := level

/-- Two outputs in a row of a recursion with the roots `p` and `q`. -/
structure Contained (p q : ℂ) (U y₁ y₂ : ℝ) : Prop where
  slope : ‖(y₁ : ℂ) - p * y₂‖ ≤ U / (1 - ‖q‖)
  newest : |y₁| ≤ U / (1 - ‖q‖) / (1 - ‖p‖)
  older : |y₂| ≤ U / (1 - ‖q‖) / (1 - ‖p‖)

section Contained

variable {p q : ℂ} {U y₁ y₂ u a₁ a₂ : ℝ}

theorem contained_zero (left : ‖p‖ < 1) (right : ‖q‖ < 1) (nonneg : 0 ≤ U) :
    Contained p q U 0 0 := by
  have slope : 0 ≤ U / (1 - ‖q‖) := div_nonneg nonneg (by linarith)
  have level : 0 ≤ U / (1 - ‖q‖) / (1 - ‖p‖) := div_nonneg slope (by linarith)
  refine ⟨?_, ?_, ?_⟩
  · rw [Complex.ofReal_zero, mul_zero, sub_zero, norm_zero]
    exact slope
  · rw [abs_zero]
    exact level
  · rw [abs_zero]
    exact level

theorem Contained.step (left : ‖p‖ < 1) (right : ‖q‖ < 1) (sum : (a₁ : ℂ) = -(p + q))
    (product : (a₂ : ℂ) = p * q) (here : Contained p q U y₁ y₂) (drive : |u| ≤ U) :
    Contained p q U (u - a₁ * y₁ - a₂ * y₂) y₁ := by
  have driven : ‖(u : ℂ)‖ ≤ U := by
    rw [Complex.norm_real]
    exact drive
  have slope : ((u - a₁ * y₁ - a₂ * y₂ : ℝ) : ℂ) - p * y₁ = u + q * (y₁ - p * y₂) := by
    push_cast
    rw [sum, product]
    ring
  have next := norm_add_mul_le right driven here.slope
  rw [← slope] at next
  have output : ((u - a₁ * y₁ - a₂ * y₂ : ℝ) : ℂ) =
      (((u - a₁ * y₁ - a₂ * y₂ : ℝ) : ℂ) - p * y₁) + p * y₁ := (sub_add_cancel _ _).symm
  have newest := here.newest
  rw [← Real.norm_eq_abs, ← Complex.norm_real] at newest
  have bounded := norm_add_mul_le left next newest
  rw [← output, Complex.norm_real] at bounded
  exact ⟨next, bounded, here.newest⟩

end Contained

/-- A stable recursion of the second order, started at rest, has an invariant that every drive
within `U` keeps and that bounds its outputs. -/
theorem Stable.exists_invariant {a₁ a₂ : ℝ} (stable : Stable a₁ a₂) {U : ℝ} (nonneg : 0 ≤ U) :
    ∃ (P : ℝ → ℝ → Prop) (Y : ℝ), P 0 0 ∧
      (∀ y₁ y₂ u, P y₁ y₂ → |u| ≤ U → P (u - a₁ * y₁ - a₂ * y₂) y₁) ∧
      ∀ y₁ y₂, P y₁ y₂ → |y₁| ≤ Y ∧ |y₂| ≤ Y := by
  obtain ⟨p, q, left, right, sum, product⟩ := stable.exists_roots
  refine ⟨Contained p q U, U / (1 - ‖q‖) / (1 - ‖p‖), contained_zero left right nonneg, ?_, ?_⟩
  · intro y₁ y₂ u here drive
    exact here.step left right sum product drive
  · intro y₁ y₂ here
    exact ⟨here.newest, here.older⟩

end Listeningway.Lib.Recursion
