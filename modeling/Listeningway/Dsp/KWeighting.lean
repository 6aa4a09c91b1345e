/- Listeningway/Dsp/KWeighting
   source: src/audio/dsp/stages/loudness_stage.h; docs/adr/research-notes.md
   digest: The magnitude response of the K-weighting shelf at both ends of the spectrum. -/

import Listeningway.Dsp.Stages.LoudnessStage
import Mathlib.Analysis.SpecialFunctions.Complex.Circle

/-!
BS.1770 starts with a shelf that raises the treble. The coefficients of `shelf` raise the
bass: at direct current they have the gain that a high shelf has at Nyquist.
-/

set_option autoImplicit false
set_option relaxedAutoImplicit false

namespace Listeningway.Dsp.LoudnessStage

open Set (Icc)

/-! ### Frequency response -/

/-- The transfer function at `z`. -/
noncomputable def Biquad.response (q : Biquad ℝ) (z : ℂ) : ℂ :=
  (q.b0 + q.b1 * z⁻¹ + q.b2 * (z⁻¹ * z⁻¹)) / (1 + q.a1 * z⁻¹ + q.a2 * (z⁻¹ * z⁻¹))

/-- Magnitude of the response at `w` radians a sample. -/
noncomputable def Biquad.magnitude (q : Biquad ℝ) (w : ℝ) : ℝ :=
  ‖q.response (Complex.exp (w * Complex.I))‖

/-- Unit gain at direct current, the whole gain at Nyquist, and a boost rises in between. -/
structure HighShelf (q : Biquad ℝ) (gainDb : ℝ) : Prop where
  dc : q.magnitude 0 = 1
  nyquist : q.magnitude Real.pi = (10 : ℝ) ^ (gainDb / 20)
  rising : 0 < gainDb → MonotoneOn q.magnitude (Icc 0 Real.pi)

theorem Biquad.magnitude_zero (q : Biquad ℝ) :
    q.magnitude 0 = |(q.b0 + q.b1 + q.b2) / (1 + q.a1 + q.a2)| := by
  have one : Complex.exp ((0 : ℝ) * Complex.I) = 1 := by
    rw [Complex.ofReal_zero, zero_mul, Complex.exp_zero]
  have real : q.response 1 = (((q.b0 + q.b1 + q.b2) / (1 + q.a1 + q.a2) : ℝ) : ℂ) := by
    unfold Biquad.response
    push_cast
    rw [inv_one, mul_one, mul_one, mul_one, mul_one, mul_one]
  unfold Biquad.magnitude
  rw [one, real, Complex.norm_real, Real.norm_eq_abs]

theorem Biquad.magnitude_pi (q : Biquad ℝ) :
    q.magnitude Real.pi = |(q.b0 - q.b1 + q.b2) / (1 - q.a1 + q.a2)| := by
  have real : q.response (-1) = (((q.b0 - q.b1 + q.b2) / (1 - q.a1 + q.a2) : ℝ) : ℂ) := by
    have inverse : (-1 : ℂ)⁻¹ = -1 := by norm_num
    unfold Biquad.response
    push_cast
    rw [inverse]
    ring
  unfold Biquad.magnitude
  rw [Complex.exp_pi_mul_I, real, Complex.norm_real, Real.norm_eq_abs]

/-! ### The shelf -/

/-- A shelf from `A`, the cosine of its corner and the skirt term. -/
noncomputable def shelfOf (a cw tail : ℝ) : Biquad ℝ :=
  let a0 := (a + 1) + (a - 1) * cw + tail
  { b0 := a * ((a + 1) - (a - 1) * cw + tail) / a0
    b1 := 2.0 * a * ((a - 1) - (a + 1) * cw) / a0
    b2 := a * ((a + 1) - (a - 1) * cw - tail) / a0
    a1 := -2.0 * ((a - 1) + (a + 1) * cw) / a0
    a2 := ((a + 1) + (a - 1) * cw - tail) / a0 }

theorem shelfOf_sums {a cw tail : ℝ} (lead : (a + 1) + (a - 1) * cw + tail ≠ 0) :
    1 + (shelfOf a cw tail).a1 + (shelfOf a cw tail).a2 =
        4 * (1 - cw) / ((a + 1) + (a - 1) * cw + tail) ∧
      1 - (shelfOf a cw tail).a1 + (shelfOf a cw tail).a2 =
        4 * a * (1 + cw) / ((a + 1) + (a - 1) * cw + tail) ∧
      (shelfOf a cw tail).b0 + (shelfOf a cw tail).b1 + (shelfOf a cw tail).b2 =
        4 * a ^ 2 * (1 - cw) / ((a + 1) + (a - 1) * cw + tail) ∧
      (shelfOf a cw tail).b0 - (shelfOf a cw tail).b1 + (shelfOf a cw tail).b2 =
        4 * a * (1 + cw) / ((a + 1) + (a - 1) * cw + tail) := by
  simp only [shelfOf, two_eq]
  refine ⟨?_, ?_, ?_, ?_⟩ <;> field_simp <;> ring

section Shelf

variable {f0 q fs gainDb : ℝ}

/-- `A` of the shelf: the square root of its gain. -/
noncomputable def amplitude (gainDb : ℝ) : ℝ := (10.0 : ℝ) ^ (gainDb / 40.0)

theorem amplitude_pos (gainDb : ℝ) : 0 < amplitude gainDb :=
  Real.rpow_pos_of_pos (by norm_num) _

theorem amplitude_sq (gainDb : ℝ) : amplitude gainDb ^ 2 = (10 : ℝ) ^ (gainDb / 20) := by
  have ten : (10.0 : ℝ) = 10 := by norm_num
  have exponent : gainDb / 40.0 * ((2 : ℕ) : ℝ) = gainDb / 20 := by
    norm_num
    ring
  rw [amplitude, ← Real.rpow_natCast, ← Real.rpow_mul (by norm_num), exponent, ten]

theorem amplitude_sq_eq_one_iff : amplitude gainDb ^ 2 = 1 ↔ gainDb = 0 := by
  rw [amplitude_sq, ← Real.rpow_zero 10, Real.rpow_right_inj (by norm_num) (by norm_num)]
  constructor
  · intro zero
    linarith
  · intro zero
    rw [zero, zero_div]

theorem corner_mem (corner : 0 < f0) (below : 2 * f0 < fs) :
    0 < 2.0 * Real.pi * f0 / fs ∧ 2.0 * Real.pi * f0 / fs < Real.pi := by
  have rate : 0 < fs := by linarith
  have pi := Real.pi_pos
  rw [two_eq]
  constructor
  · positivity
  · rw [div_lt_iff₀ rate]
    nlinarith

theorem sin_corner_pos (corner : 0 < f0) (below : 2 * f0 < fs) :
    0 < Real.sin (2.0 * Real.pi * f0 / fs) :=
  Real.sin_pos_of_pos_of_lt_pi (corner_mem corner below).1 (corner_mem corner below).2

theorem cos_corner (corner : 0 < f0) (below : 2 * f0 < fs) :
    -1 < Real.cos (2.0 * Real.pi * f0 / fs) ∧ Real.cos (2.0 * Real.pi * f0 / fs) < 1 := by
  have sin := sin_corner_pos corner below
  have circle := Real.sin_sq_add_cos_sq (2.0 * Real.pi * f0 / fs)
  constructor <;> nlinarith

/-- The last term of the coefficients that have one. -/
noncomputable def skirt (f0 q gainDb fs : ℝ) : ℝ :=
  2.0 * Real.sqrt (amplitude gainDb) * (Real.sin (2.0 * Real.pi * f0 / fs) / (2.0 * q))

theorem skirt_pos (corner : 0 < f0) (below : 2 * f0 < fs) (quality : 0 < q) (gainDb : ℝ) :
    0 < skirt f0 q gainDb fs := by
  have two : (0 : ℝ) < 2.0 := by norm_num
  have root := Real.sqrt_pos.mpr (amplitude_pos gainDb)
  have sin := sin_corner_pos corner below
  exact mul_pos (mul_pos two root) (div_pos sin (mul_pos two quality))

theorem shelf_eq (f0 q gainDb fs : ℝ) :
    shelf f0 q gainDb fs =
      shelfOf (amplitude gainDb) (Real.cos (2.0 * Real.pi * f0 / fs)) (skirt f0 q gainDb fs) := rfl

theorem magnitude_shelf (corner : 0 < f0) (below : 2 * f0 < fs) (quality : 0 < q) (gainDb : ℝ) :
    (shelf f0 q gainDb fs).magnitude 0 = amplitude gainDb ^ 2 ∧
      (shelf f0 q gainDb fs).magnitude Real.pi = 1 := by
  obtain ⟨lower, upper⟩ := cos_corner corner below
  have side := skirt_pos corner below quality gainDb
  have amp := amplitude_pos gainDb
  rw [shelf_eq]
  generalize Real.cos (2.0 * Real.pi * f0 / fs) = cw at lower upper ⊢
  generalize skirt f0 q gainDb fs = tail at side ⊢
  generalize amplitude gainDb = a at amp ⊢
  have lead : (a + 1) + (a - 1) * cw + tail ≠ 0 := by
    apply ne_of_gt
    nlinarith
  obtain ⟨denominator, denominator', numerator, numerator'⟩ := shelfOf_sums lead
  rw [Biquad.magnitude_zero, Biquad.magnitude_pi, numerator, denominator, numerator', denominator',
    div_div_div_cancel_right₀ lead, div_div_div_cancel_right₀ lead]
  have below : 4 * (1 - cw) ≠ 0 := by
    apply ne_of_gt
    linarith
  have above : 4 * a * (1 + cw) ≠ 0 := by
    apply ne_of_gt
    apply mul_pos <;> linarith
  constructor
  · have whole : 4 * a ^ 2 * (1 - cw) = a ^ 2 * (4 * (1 - cw)) := by ring
    rw [whole, mul_div_cancel_right₀ _ below, abs_of_nonneg (sq_nonneg a)]
  · rw [div_self above, abs_one]

/-- The shelf is the high shelf of its gain only where there is nothing to raise. -/
theorem highShelf_iff (corner : 0 < f0) (below : 2 * f0 < fs) (quality : 0 < q) (gainDb : ℝ) :
    HighShelf (shelf f0 q gainDb fs) gainDb ↔ gainDb = 0 := by
  obtain ⟨dc, nyquist⟩ := magnitude_shelf corner below quality gainDb
  constructor
  · intro high
    rw [← amplitude_sq_eq_one_iff, ← dc]
    exact high.dc
  · intro flat
    constructor
    · rw [dc, amplitude_sq_eq_one_iff]
      exact flat
    · rw [nyquist, flat, zero_div, Real.rpow_zero]
    · intro boost
      exact absurd flat boost.ne'

/-- The filter that `configure` makes at 48 kHz, with nothing to raise and with its own gain. -/
theorem flat_shelf_high :
    HighShelf (shelf 1681.9744 0.7071 0 48000) 0 ∧
      ¬HighShelf (shelf 1681.9744 0.7071 3.99984 48000) 3.99984 := by
  have high : ∀ gainDb, HighShelf (shelf 1681.9744 0.7071 gainDb 48000) gainDb ↔ gainDb = 0 :=
    highShelf_iff (by norm_num) (by norm_num) (by norm_num)
  refine ⟨(high 0).mpr rfl, fun raised => ?_⟩
  have flat := (high 3.99984).mp raised
  norm_num at flat

/-- It raises the bass. -/
theorem configured_shelf_not_high :
    ¬HighShelf (shelf 1681.9744 0.7071 3.99984 48000) 3.99984 := by
  intro high
  have dc : (shelf 1681.9744 0.7071 3.99984 48000).magnitude 0 = amplitude 3.99984 ^ 2 :=
    (magnitude_shelf (by norm_num) (by norm_num) (by norm_num) 3.99984).1
  rw [high.dc] at dc
  have flat := amplitude_sq_eq_one_iff.mp dc.symm
  norm_num at flat

end Shelf

end Listeningway.Dsp.LoudnessStage
