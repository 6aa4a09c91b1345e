/- Listeningway/Dsp/BandLevels
   source: src/audio/dsp/stages/fft_stage.cpp; src/audio/dsp/stages/bands_stage.cpp;
     src/audio/dsp/stages/log_boost_stage.h; src/audio/dsp/stages/equalizer_stage.h
   digest: Levels of the bands against the samples, and the gains that follow them. -/

import Listeningway.Config.Store
import Listeningway.Dsp.BalancedAcf
import Listeningway.Dsp.BandPath

set_option autoImplicit false
set_option relaxedAutoImplicit false

namespace Listeningway.Dsp

open Listeningway.Config
open Listeningway.Dsp.CombTempo (ComputesDft toComplex)

namespace AnalysisFrame

/-- Sum of the absolute samples, per channel. -/
noncomputable def total (frame : AnalysisFrame ℝ) : ℝ :=
  (frame.samples.map fun s => |s|).sum / (max frame.format.channels 1 : ℕ)

theorem total_nonneg (frame : AnalysisFrame ℝ) : 0 ≤ frame.total := by
  refine div_nonneg (List.sum_nonneg fun v listed => ?_) (Nat.cast_nonneg _)
  obtain ⟨s, -, rfl⟩ := List.mem_map.mp listed
  exact abs_nonneg s

end AnalysisFrame

/-! ### Samples by frames -/

theorem sum_rows (g : ℕ → ℝ) (rows width : ℕ) :
    ∑ i ∈ Finset.range rows, ∑ c ∈ Finset.range width, g (i * width + c) =
      ∑ j ∈ Finset.range (rows * width), g j := by
  induction rows with
  | zero => rw [Nat.zero_mul, Finset.sum_range_zero, Finset.sum_range_zero]
  | succ rows ih =>
    rw [Finset.sum_range_succ, ih, Nat.succ_mul, Finset.sum_range_add]

theorem sum_getD_le (samples : List ℝ) {n : ℕ} (inside : n ≤ samples.length) :
    ∑ j ∈ Finset.range n, |samples.getD j 0| ≤ (samples.map fun s => |s|).sum := by
  have whole : (samples.map fun s => |s|).sum =
      ∑ j ∈ Finset.range samples.length, |samples.getD j 0| := by
    rw [← Fin.sum_univ_eq_sum_range fun j => |samples.getD j 0|, ← List.sum_ofFn]
    congr 1
    apply List.ext_getElem (by simp)
    intro j low high
    simp only [List.getElem_map, List.getElem_ofFn]
    rw [List.getD_eq_getElem]
  rw [whole]
  exact Finset.sum_le_sum_of_subset_of_nonneg (Finset.range_mono inside)
    fun _ _ _ => abs_nonneg _

namespace FftStage

theorem sum_downmix_le (frame : AnalysisFrame ℝ) :
    ∑ i ∈ Finset.range (frame.samples.length / max frame.format.channels 1), |downmix frame i| ≤
      frame.total := by
  have wide : (0 : ℝ) < (max frame.format.channels 1 : ℕ) := by
    exact_mod_cast Nat.lt_of_lt_of_le one_pos (le_max_right _ _)
  have each (i : ℕ) : |downmix frame i| ≤
      (∑ c ∈ Finset.range (max frame.format.channels 1),
        |frame.samples.getD (i * max frame.format.channels 1 + c) 0|) /
          (max frame.format.channels 1 : ℕ) := by
    rw [downmix, abs_div, abs_of_pos wide]
    exact div_le_div_of_nonneg_right (Finset.abs_sum_le_sum_abs _ _) wide.le
  calc _ ≤ ∑ i ∈ Finset.range (frame.samples.length / max frame.format.channels 1),
        (∑ c ∈ Finset.range (max frame.format.channels 1),
          |frame.samples.getD (i * max frame.format.channels 1 + c) 0|) /
            (max frame.format.channels 1 : ℕ) := Finset.sum_le_sum fun i _ => each i
    _ ≤ frame.total := by
      rw [← Finset.sum_div, sum_rows (fun j => |frame.samples.getD j 0|), AnalysisFrame.total]
      exact div_le_div_of_nonneg_right (sum_getD_le _ (Nat.div_mul_le_self _ _)) wide.le

theorem hannWindow_mem (size : ℕ) : ∀ w ∈ (hannWindow size : List ℝ), 0 ≤ w ∧ w ≤ 1 := by
  intro w listed
  obtain ⟨n, -, rfl⟩ := List.mem_map.mp listed
  let angle : ℝ := 2.0 * Real.pi * n / ((size : ℝ) - 1)
  have low := Real.neg_one_le_cos angle
  have high := Real.cos_le_one angle
  change 0 ≤ 0.5 * (1 - Real.cos angle) ∧ 0.5 * (1 - Real.cos angle) ≤ 1
  constructor <;> linarith

theorem abs_hannWindow_le (size i : ℕ) : |(hannWindow size : List ℝ).getD i 0| ≤ 1 := by
  rcases Nat.lt_or_ge i (hannWindow size : List ℝ).length with inside | past
  · rw [List.getD_eq_getElem _ _ inside]
    obtain ⟨low, high⟩ := hannWindow_mem size _ (List.getElem_mem inside)
    rwa [abs_of_nonneg low]
  · rw [List.getD_eq_default _ _ past, abs_zero]
    exact zero_le_one

/-! ### The transform -/

theorem magnitude_eq_norm (z : ℝ × ℝ) : magnitude z = ‖toComplex z‖ := by
  rw [Complex.norm_def, Complex.normSq_apply]
  rfl

theorem norm_fft_le {kiss : KissFft ℝ} {n : ℕ} (computes : ComputesDft kiss n)
    (x : Fin n → ℝ × ℝ) (k : Fin n) :
    ‖toComplex (kiss.fft n x k)‖ ≤ ∑ j, ‖toComplex (x j)‖ := by
  rw [computes.forward]
  refine (norm_sum_le _ _).trans (Finset.sum_le_sum fun j _ => ?_)
  rw [norm_mul, ← Complex.ofReal_neg, Complex.norm_exp_ofReal_mul_I, mul_one]

theorem norm_input_le (size : ℕ) (frame : AnalysisFrame ℝ) (i : ℕ) :
    ‖toComplex (input (hannWindow size) frame i)‖ ≤
      if i < frame.samples.length / max frame.format.channels 1 then |downmix frame i| else 0 := by
  have real (v : ℝ) : ‖toComplex (v, 0)‖ = |v| := Complex.norm_real v
  rw [input]
  split_ifs with inside
  · rw [real, abs_mul]
    exact mul_le_of_le_one_right (abs_nonneg _) (abs_hannWindow_le size i)
  · rw [real, abs_zero]

theorem magnitude_bin_le [kiss : KissFft ℝ] {size : ℕ} (computes : ComputesDft kiss size)
    (frame : AnalysisFrame ℝ) (k : Fin (size / 2)) :
    magnitude (bin (hannWindow size) frame size k) ≤ frame.total := by
  let rows := frame.samples.length / max frame.format.channels 1
  calc magnitude (bin (hannWindow size) frame size k)
      ≤ ∑ j : Fin size, ‖toComplex (input (hannWindow size) frame j)‖ := by
        rw [magnitude_eq_norm]
        exact norm_fft_le computes _ _
    _ ≤ ∑ j : Fin size, (if (j : ℕ) < rows then |downmix frame j| else 0) :=
        Finset.sum_le_sum fun j _ => norm_input_le size frame j
    _ = ∑ j ∈ (Finset.range size).filter (· < rows), |downmix frame j| := by
        rw [Fin.sum_univ_eq_sum_range fun j => if j < rows then |downmix frame j| else 0,
          Finset.sum_filter]
    _ ≤ ∑ j ∈ Finset.range rows, |downmix frame j| := by
        refine Finset.sum_le_sum_of_subset_of_nonneg (fun j listed => ?_)
          fun _ _ _ => abs_nonneg _
        exact Finset.mem_range.mpr (Finset.mem_filter.mp listed).2
    _ ≤ frame.total := sum_downmix_le frame

theorem magnitudes_le [kiss : KissFft ℝ] (computes : ∀ n, ComputesDft kiss n) {st : FftStage ℝ}
    (planned : st.Planned) {frame : AnalysisFrame ℝ} (blank : frame.magnitudes = none)
    {cfg : Settings ℝ} {mags : List ℝ} (found : (st.process frame cfg).2.magnitudes = some mags) :
    ∀ m ∈ mags, m ≤ frame.total := by
  have size : (max 64 cfg.frequency.fftSize).toNat ≠ 0 := by omega
  have plan := planned_configure planned (max 64 cfg.frequency.fftSize).toNat
  rw [process_magnitudes, blank] at found
  split_ifs at found
  obtain rfl := Option.some.inj found
  intro m listed
  obtain ⟨k, rfl⟩ := List.mem_ofFn.mp listed
  rw [plan.hann (by rwa [configure_fftSize _ size])]
  exact magnitude_bin_le (computes _) frame k

end FftStage

/-! ### Bands -/

namespace BandsStage

theorem getD_mem {P : ℝ → Prop} {mags : List ℝ} (each : ∀ m ∈ mags, P m) (zero : P 0) (k : ℕ) :
    P (mags.getD k 0) := by
  rcases Nat.lt_or_ge k mags.length with inside | past
  · rw [List.getD_eq_getElem _ _ inside]
    exact each _ (List.getElem_mem inside)
  · rwa [List.getD_eq_default _ _ past]

theorem average_nonneg {mags : List ℝ} (pos : ∀ m ∈ mags, 0 ≤ m) (bins : List ℕ) :
    0 ≤ average mags bins := by
  unfold average
  split_ifs
  · exact le_rfl
  · refine div_nonneg (List.sum_nonneg ?_) (Nat.cast_nonneg _)
    exact List.forall_mem_map.mpr fun k _ => getD_mem pos le_rfl k

theorem average_le {mags : List ℝ} {bound : ℝ} (nonneg : 0 ≤ bound)
    (le : ∀ m ∈ mags, m ≤ bound) (bins : List ℕ) : average mags bins ≤ bound := by
  unfold average
  split_ifs with none
  · exact nonneg
  · have count : 0 < bins.length := List.length_pos_iff.mpr none
    have terms := List.sum_le_card_nsmul (bins.map fun k => mags.getD k 0) bound
      (List.forall_mem_map.mpr fun k _ => getD_mem le nonneg k)
    rw [List.length_map] at terms
    rwa [div_le_iff₀ (Nat.cast_pos.mpr count), mul_comm, ← nsmul_eq_mul]

end BandsStage

/-! ### Gains -/

theorem LogBoostStage.gain_nonneg (fc : FrequencyConfig ℝ) (b : ℕ) : 0 ≤ gain fc b := by
  unfold gain
  split_ifs
  · exact zero_le_one
  · exact (Real.exp_pos _).le

namespace EqualizerStage

theorem weight_pos (fc : FrequencyConfig ℝ) (n b : ℕ) (i : Fin 5) : 0 < weight fc n b i :=
  Real.exp_pos _

theorem multiplier_eq (fc : FrequencyConfig ℝ) (n b : ℕ) :
    multiplier fc n b =
      (∑ i, weight fc n b i * fc.equalizerBands i) / ∑ i, weight fc n b i :=
  if_pos (Finset.sum_pos (fun i _ => weight_pos fc n b i) Finset.univ_nonempty)

theorem multiplier_nonneg {fc : FrequencyConfig ℝ} (knobs : ∀ i, 0 ≤ fc.equalizerBands i)
    (n b : ℕ) : 0 ≤ multiplier fc n b := by
  rw [multiplier_eq]
  exact div_nonneg (Finset.sum_nonneg fun i _ => mul_nonneg (weight_pos fc n b i).le (knobs i))
    (Finset.sum_nonneg fun i _ => (weight_pos fc n b i).le)

theorem multiplier_level {fc : FrequencyConfig ℝ} {v : ℝ} (knobs : ∀ i, fc.equalizerBands i = v)
    (n b : ℕ) : multiplier fc n b = v := by
  have total : 0 < ∑ i, weight fc n b i :=
    Finset.sum_pos (fun i _ => weight_pos fc n b i) Finset.univ_nonempty
  rw [multiplier_eq, Finset.sum_congr rfl fun i _ => congrArg _ (knobs i), ← Finset.sum_mul,
    mul_div_cancel_left₀ _ total.ne']

end EqualizerStage

namespace ComposedStages

theorem gain_nonneg {cfg : Settings ℝ} (range : cfg.InRange) (b : ℕ) : 0 ≤ gain cfg b :=
  mul_nonneg (LogBoostStage.gain_nonneg _ _)
    (EqualizerStage.multiplier_nonneg (fun i => (range.frequency.equalizerBands i).1) _ _)

theorem gain_level {cfg : Settings ℝ} {v : ℝ} (scale : cfg.frequency.bandScale ≠ .log)
    (knobs : ∀ i, cfg.frequency.equalizerBands i = v) (b : ℕ) : gain cfg b = v := by
  have boost : LogBoostStage.gain cfg.frequency b = 1 := if_pos (.inl scale)
  rw [gain, boost, one_mul, EqualizerStage.multiplier_level knobs]

variable [kiss : KissFft ℝ] {c : ComposedStages ℝ} {frame : AnalysisFrame ℝ} {cfg : Settings ℝ}

theorem level_nonneg (blank : frame.magnitudes = none) (norm : 0 ≤ cfg.frequency.bandNorm)
    {mags : List ℝ} (found : (c.fft.process frame cfg).2.magnitudes = some mags) (b : ℕ) :
    0 ≤ c.level frame cfg mags b := by
  refine mul_nonneg (BandsStage.average_nonneg ?_ _) norm
  rw [FftStage.process_magnitudes, blank] at found
  split_ifs at found
  obtain rfl := Option.some.inj found
  intro m listed
  obtain ⟨k, rfl⟩ := List.mem_ofFn.mp listed
  exact Real.sqrt_nonneg _

/-- No band exceeds the total of the samples, but for `band_norm`. -/
theorem level_le (computes : ∀ n, ComputesDft kiss n) (planned : c.fft.Planned)
    (blank : frame.magnitudes = none) (norm : 0 ≤ cfg.frequency.bandNorm) {mags : List ℝ}
    (found : (c.fft.process frame cfg).2.magnitudes = some mags) (b : ℕ) :
    c.level frame cfg mags b ≤ frame.total * cfg.frequency.bandNorm :=
  mul_le_mul_of_nonneg_right (BandsStage.average_le frame.total_nonneg
    (FftStage.magnitudes_le computes planned blank found) _) norm

end ComposedStages

end Listeningway.Dsp
