/- Listeningway/Dsp/BalancedAcf
   source: src/audio/dsp/beat/comb_tempo.cpp
   digest: The detour over the transform computes the balanced autocorrelation. -/

import Listeningway.Dsp.Beat.CombTempo
import Listeningway.Lib.FourierSums

/-!
The window is padded to twice its length, so that no product of the circular
autocorrelation wraps around.
-/

set_option autoImplicit false
set_option relaxedAutoImplicit false

namespace Listeningway.Dsp.CombTempo

open Listeningway.Lib.FourierSums

section Window

variable {K : Type} [Field K]

/-- The samples of a window, zero after its end. -/
def padded (odf : Fin kOdfLength → K) (k : ℕ) : K :=
  if h : k < kOdfLength then odf ⟨k, h⟩ else 0

theorem padded_of_lt (odf : Fin kOdfLength → K) {k : ℕ} (inside : k < kOdfLength) :
    padded odf k = odf ⟨k, inside⟩ := dif_pos inside

theorem padded_of_le (odf : Fin kOdfLength → K) {k : ℕ} (outside : kOdfLength ≤ k) :
    padded odf k = 0 := dif_neg (not_lt.mpr outside)

/-- Sum of the products of the samples `lag` apart. -/
def autocorrelation (odf : Fin kOdfLength → K) (lag : ℕ) : K :=
  ∑ j : Fin kOdfLength, odf j * padded odf (j + lag)

end Window

theorem sum_padded (odf : Fin kOdfLength → ℝ) (lag : ℕ) :
    ∑ j : Fin kFftLength, padded odf j * padded odf (j + lag) = autocorrelation odf lag := by
  have short : Finset.range kOdfLength ⊆ Finset.range kFftLength :=
    Finset.range_subset_range.mpr (by decide)
  unfold autocorrelation
  rw [← Finset.sum_range fun j => padded odf j * padded odf (j + lag),
    ← Finset.sum_subset short, Finset.sum_range]
  · apply Finset.sum_congr rfl
    intro j _
    rw [padded_of_lt odf j.2]
  · intro j _ outside
    rw [padded_of_le odf (not_lt.mp fun below => outside (Finset.mem_range.mpr below)), zero_mul]

theorem sum_wrap (odf : Fin kOdfLength → ℝ) {lag : ℕ} (short : lag < kOdfLength)
    (j : Fin kFftLength) :
    ∑ l : Fin kFftLength, padded odf j * padded odf l *
        (if (kFftLength : ℤ) ∣ (j : ℤ) - l + lag then (kFftLength : ℝ) else 0) =
      kFftLength * (padded odf j * padded odf (j + lag)) := by
  have double : kFftLength = 2 * kOdfLength := rfl
  rcases lt_or_ge (j : ℕ) kOdfLength with inside | outside
  · rw [Finset.sum_eq_single (⟨j + lag, by omega⟩ : Fin kFftLength)]
    · rw [if_pos ⟨0, by push_cast; ring⟩]
      ring
    · intro l _ other
      rcases lt_or_ge (l : ℕ) kOdfLength with near | far
      · rw [if_neg, mul_zero]
        intro wraps
        apply other
        have zero := Int.eq_zero_of_abs_lt_dvd wraps (by rw [abs_lt]; omega)
        exact Fin.ext (by change (l : ℕ) = j + lag; omega)
      · rw [padded_of_le odf far, mul_zero, zero_mul]
    · intro absent
      exact absurd (Finset.mem_univ _) absent
  · rw [padded_of_le odf outside]
    simp only [zero_mul, mul_zero, Finset.sum_const_zero]

theorem sum_circular (odf : Fin kOdfLength → ℝ) {lag : ℕ} (short : lag < kOdfLength) :
    ∑ j : Fin kFftLength, ∑ l : Fin kFftLength, padded odf j * padded odf l *
        (((if (kFftLength : ℤ) ∣ (j : ℤ) - l + lag then (kFftLength : ℝ) else 0) +
          if (kFftLength : ℤ) ∣ (j : ℤ) - l - lag then (kFftLength : ℝ) else 0) / 2) =
      kFftLength * autocorrelation odf lag := by
  have forward : ∑ j : Fin kFftLength, ∑ l : Fin kFftLength, padded odf j * padded odf l *
      (if (kFftLength : ℤ) ∣ (j : ℤ) - l + lag then (kFftLength : ℝ) else 0) =
        kFftLength * autocorrelation odf lag := by
    simp only [sum_wrap odf short, ← Finset.mul_sum, sum_padded]
  -- the other direction is the same sum with its factors exchanged
  have backward : ∑ j : Fin kFftLength, ∑ l : Fin kFftLength, padded odf j * padded odf l *
      (if (kFftLength : ℤ) ∣ (j : ℤ) - l - lag then (kFftLength : ℝ) else 0) =
        kFftLength * autocorrelation odf lag := by
    rw [← forward, Finset.sum_comm]
    apply Finset.sum_congr rfl
    intro l _
    apply Finset.sum_congr rfl
    intro j _
    have turned : (kFftLength : ℤ) ∣ (j : ℤ) - l - lag ↔ (kFftLength : ℤ) ∣ (l : ℤ) - j + lag := by
      rw [← dvd_neg]
      ring_nf
    rw [mul_comm (padded odf j), if_congr turned rfl rfl]
  have half : ∀ a b c : ℝ, a * ((b + c) / 2) = (a * b + a * c) / 2 := by
    intro a b c
    ring
  simp only [half, ← Finset.sum_div, Finset.sum_add_distrib, forward, backward]
  ring

theorem fft_padded (odf : Fin kOdfLength → ℝ) (k : Fin kFftLength) :
    KissFft.fft kFftLength (fun j => (padded odf j, 0)) k =
      (∑ j : Fin kFftLength, padded odf j * Real.cos (angle kFftLength j k),
        -∑ j : Fin kFftLength, padded odf j * Real.sin (angle kFftLength j k)) := by
  simp only [KissFft.fft, angle_eq, Int.cast_natCast, zero_mul, add_zero, zero_sub,
    Finset.sum_neg_distrib]

theorem fftInverse_real (re : Fin kFftLength → ℝ) (i : Fin kFftLength) :
    KissFft.fftInverse kFftLength (fun k => (re k, 0)) i =
      (∑ k : Fin kFftLength, re k * Real.cos (angle kFftLength i k),
        ∑ k : Fin kFftLength, re k * Real.sin (angle kFftLength i k)) := by
  have turned : ∀ k : Fin kFftLength, angle kFftLength i k = 2 * Real.pi * k * i / kFftLength := by
    intro k
    rw [angle_eq, Int.cast_natCast, mul_right_comm]
  simp only [KissFft.fftInverse, turned, zero_mul, sub_zero, zero_add]

theorem power_padded (odf : Fin kOdfLength → ℝ) (k : Fin kFftLength) :
    (KissFft.fft kFftLength (fun j => (padded odf j, 0)) k).1 *
        (KissFft.fft kFftLength (fun j => (padded odf j, 0)) k).1 +
      (KissFft.fft kFftLength (fun j => (padded odf j, 0)) k).2 *
        (KissFft.fft kFftLength (fun j => (padded odf j, 0)) k).2 =
      power (fun j : Fin kFftLength => padded odf j) k := by
  rw [fft_padded, power_eq]
  ring

theorem fftInverse_power (odf : Fin kOdfLength → ℝ) {k : Fin kFftLength}
    (short : (k : ℕ) < kOdfLength) :
    KissFft.fftInverse kFftLength
        (fun k => (power (fun j : Fin kFftLength => padded odf j) k, (0 : ℝ))) k =
      ((kFftLength : ℝ) * autocorrelation odf k, 0) := by
  rw [fftInverse_real, sum_power_mul_cos (by decide), sum_power_mul_sin (by decide),
    ← sum_circular odf short]

theorem balancedAcf_eq (odf : Fin kOdfLength → ℝ) (i : Fin kOdfLength) :
    balancedAcf odf i = |autocorrelation odf i| / ((kOdfLength - i : ℕ) : ℝ) := by
  have long : (0 : ℝ) < kFftLength := by
    rw [kFftLength]
    norm_num
  have acf : balancedAcf odf i = Real.sqrt
      ((kFftLength : ℝ) * autocorrelation odf i * ((kFftLength : ℝ) * autocorrelation odf i) +
        0 * 0) / ((kOdfLength - i : ℕ) : ℝ) / kFftLength := by
    have read := fftInverse_power odf (k := ⟨i, lt_trans i.2 (by decide)⟩) i.2
    simp only [← power_padded] at read
    unfold padded at read
    unfold balancedAcf
    dsimp only
    rw [read]
    rfl
  rw [acf, mul_zero, add_zero, Real.sqrt_mul_self_eq_abs, abs_mul, abs_of_pos long,
    div_right_comm, mul_div_cancel_left₀ _ long.ne']

/-! ### Over any transform -/

/-- A pair of real and imaginary part. -/
def toComplex (z : ℝ × ℝ) : ℂ := ⟨z.1, z.2⟩

theorem toComplex_injective : Function.Injective toComplex := by
  intro z z' same
  obtain ⟨re, im⟩ := Complex.ext_iff.mp same
  exact Prod.ext re im

/-- What kissfft computes at length `n`: the discrete Fourier transform, and its inverse without
the factor `1 / n`. -/
structure ComputesDft (kiss : KissFft ℝ) (n : ℕ) : Prop where
  forward : ∀ (x : Fin n → ℝ × ℝ) (k : Fin n), toComplex (kiss.fft n x k) =
    ∑ j : Fin n, toComplex (x j) * Complex.exp (-(2 * Real.pi * j * k / n : ℝ) * Complex.I)
  inverse : ∀ (x : Fin n → ℝ × ℝ) (k : Fin n), toComplex (kiss.fftInverse n x k) =
    ∑ j : Fin n, toComplex (x j) * Complex.exp ((2 * Real.pi * j * k / n : ℝ) * Complex.I)

theorem toComplex_mul_exp (z : ℝ × ℝ) (w : ℝ) :
    toComplex z * Complex.exp (w * Complex.I) =
      toComplex (z.1 * Real.cos w - z.2 * Real.sin w, z.2 * Real.cos w + z.1 * Real.sin w) := by
  apply Complex.ext
  · rw [Complex.mul_re, Complex.exp_ofReal_mul_I_re, Complex.exp_ofReal_mul_I_im]
    rfl
  · rw [Complex.mul_im, Complex.exp_ofReal_mul_I_re, Complex.exp_ofReal_mul_I_im, add_comm]
    rfl

theorem sum_toComplex {n : ℕ} (z : Fin n → ℝ × ℝ) :
    ∑ j, toComplex (z j) = toComplex (∑ j, (z j).1, ∑ j, (z j).2) := by
  apply Complex.ext
  · rw [Complex.re_sum]
    rfl
  · rw [Complex.im_sum]
    rfl

theorem computesDft_exact (n : ℕ) : ComputesDft instKissFftReal n where
  forward x k := by
    have term : ∀ j : Fin n,
        toComplex (x j) * Complex.exp (-(2 * Real.pi * j * k / n : ℝ) * Complex.I) =
          toComplex ((x j).1 * Real.cos (2 * Real.pi * j * k / n) +
              (x j).2 * Real.sin (2 * Real.pi * j * k / n),
            (x j).2 * Real.cos (2 * Real.pi * j * k / n) -
              (x j).1 * Real.sin (2 * Real.pi * j * k / n)) := by
      intro j
      rw [← Complex.ofReal_neg, toComplex_mul_exp, Real.cos_neg, Real.sin_neg, mul_neg, mul_neg,
        sub_neg_eq_add, ← sub_eq_add_neg]
    rw [Finset.sum_congr rfl fun j _ => term j, sum_toComplex]
    rfl
  inverse x k := by
    rw [Finset.sum_congr rfl fun j _ => toComplex_mul_exp (x j) _, sum_toComplex]
    rfl

theorem ComputesDft.fft_eq {kiss kiss' : KissFft ℝ} {n : ℕ} (h : ComputesDft kiss n)
    (h' : ComputesDft kiss' n) :
    kiss.fft n = kiss'.fft n ∧ kiss.fftInverse n = kiss'.fftInverse n := by
  constructor
  · funext x k
    exact toComplex_injective ((h.forward x k).trans (h'.forward x k).symm)
  · funext x k
    exact toComplex_injective ((h.inverse x k).trans (h'.inverse x k).symm)

theorem balancedAcf_exact {kiss : KissFft ℝ} (computes : ComputesDft kiss kFftLength)
    (odf : Fin kOdfLength → ℝ) :
    @balancedAcf ℝ _ _ kiss odf = @balancedAcf ℝ _ _ instKissFftReal odf := by
  obtain ⟨forward, inverse⟩ := computes.fft_eq (computesDft_exact kFftLength)
  unfold balancedAcf
  rw [forward, inverse]

theorem autocorrelation_eq (odf : Fin kOdfLength → ℝ) (lag : Fin kOdfLength) :
    autocorrelation odf lag = ∑ n : Fin (kOdfLength - lag),
      odf ⟨n, n.2.trans_le (Nat.sub_le _ _)⟩ * odf ⟨n + lag, Nat.add_lt_of_lt_sub n.2⟩ := by
  have short : Finset.range (kOdfLength - lag) ⊆ Finset.range kOdfLength :=
    Finset.range_subset_range.mpr (Nat.sub_le _ _)
  have whole : autocorrelation odf lag =
      ∑ n ∈ Finset.range kOdfLength, padded odf n * padded odf (n + lag) := by
    rw [autocorrelation, Finset.sum_range]
    apply Finset.sum_congr rfl
    intro n _
    rw [padded_of_lt odf n.2]
  rw [whole, ← Finset.sum_subset short, Finset.sum_range]
  · apply Finset.sum_congr rfl
    intro n _
    rw [padded_of_lt odf (n.2.trans_le (Nat.sub_le _ _)),
      padded_of_lt odf (Nat.add_lt_of_lt_sub n.2)]
  · intro n _ outside
    have late := not_lt.mp fun below => outside (Finset.mem_range.mpr below)
    rw [padded_of_le odf (by omega : kOdfLength ≤ n + lag), mul_zero]

/-- Whatever computes the transforms, on samples that are not negative `balanced_acf` is the
direct sum over the number of its terms: nothing wraps around, and the magnitude changes
nothing. -/
theorem acf_is_direct {kiss : KissFft ℝ} (computes : ComputesDft kiss kFftLength)
    {odf : Fin kOdfLength → ℝ} (nonneg : ∀ n, 0 ≤ odf n) (lag : Fin kOdfLength) :
    @balancedAcf ℝ _ _ kiss odf lag =
      (∑ n : Fin (kOdfLength - lag),
        odf ⟨n, n.2.trans_le (Nat.sub_le _ _)⟩ * odf ⟨n + lag, Nat.add_lt_of_lt_sub n.2⟩) /
          ((kOdfLength - lag : ℕ) : ℝ) := by
  have sum : 0 ≤ ∑ n : Fin (kOdfLength - lag),
      odf ⟨n, n.2.trans_le (Nat.sub_le _ _)⟩ * odf ⟨n + lag, Nat.add_lt_of_lt_sub n.2⟩ :=
    Finset.sum_nonneg fun n _ => mul_nonneg (nonneg _) (nonneg _)
  rw [balancedAcf_exact computes, balancedAcf_eq, autocorrelation_eq, abs_of_nonneg sum]

/-- A level window under the exact transforms, half a window apart. -/
theorem acf_of_level_window :
    @balancedAcf ℝ _ _ instKissFftReal (fun _ => 1) ⟨256, by decide⟩ =
      (∑ _n : Fin (kOdfLength - 256), (1 : ℝ) * 1) / ((kOdfLength - 256 : ℕ) : ℝ) :=
  acf_is_direct (computesDft_exact kFftLength) (fun _ => zero_le_one) ⟨256, by decide⟩

end Listeningway.Dsp.CombTempo
