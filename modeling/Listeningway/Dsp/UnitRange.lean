/- Listeningway/Dsp/UnitRange
   source: src/audio/dsp/stages/equalizer_stage.h; src/audio/dsp/stages/log_boost_stage.h;
     src/audio/dsp/stages/directional_stage.h; STABILITY.md
   digest: When the published bands and directions stay in [0, 1], over whole runs. -/

import Listeningway.Dsp.BandLevels
import Mathlib.Data.List.GetD

/-!
BandsStage clamps at 1, but two gains follow it; DirectionalStage adds the neighbours of
a bucket to it and clamps only from below.
-/

set_option autoImplicit false
set_option relaxedAutoImplicit false

namespace Listeningway.Dsp.DirectionalStage

open Listeningway.Source.SourceFormat

theorem route_two {format : Format}
    (two : format.channels = 1 ∨ format.channels = 2 ∨ format.layout = .stereo) {rms : Fin 8 → ℝ}
    (low : ∀ c, 0 ≤ rms c) (high : ∀ c, rms c ≤ 1) (i : Fin 8) :
    (route format rms i ≤ 1 ∧ neighbours (route format rms) i = 0) ∨
      (route format rms i = 0 ∧ neighbours (route format rms) i ≤ 1) := by
  unfold route neighbours
  by_cases mono : format.channels = 1
  · simp only [if_pos mono]
    fin_cases i
    case «0» => exact .inl ⟨high 0, add_zero 0⟩
    all_goals exact .inr ⟨rfl, by simp [high]⟩
  · simp only [if_neg mono, if_pos (two.resolve_left mono)]
    have left : min (rms 0) (rms 1) + max 0 (rms 0 - min (rms 0) (rms 1)) = rms 0 := by
      rw [max_eq_right (sub_nonneg.mpr (min_le_left _ _)), add_sub_cancel]
    have right : min (rms 0) (rms 1) + max 0 (rms 1 - min (rms 0) (rms 1)) = rms 1 := by
      rw [max_eq_right (sub_nonneg.mpr (min_le_right _ _)), add_sub_cancel]
    have common : 0 ≤ min (rms 0) (rms 1) := le_min (low 0) (low 1)
    generalize min (rms 0) (rms 1) = front at left right common
    have onlyLeft : 0 ≤ max 0 (rms 0 - front) := le_max_left _ _
    have onlyRight : 0 ≤ max 0 (rms 1 - front) := le_max_left _ _
    generalize max 0 (rms 0 - front) = leftOnly at left onlyLeft ⊢
    generalize max 0 (rms 1 - front) = rightOnly at right onlyRight ⊢
    have loudLeft := high 0
    have loudRight := high 1
    fin_cases i
    case «0» | «2» | «6» => exact .inl ⟨by simp; linarith, by simp⟩
    case «4» => exact .inr ⟨rfl, by simp⟩
    all_goals exact .inr ⟨rfl, by simp; linarith⟩

theorem route_le (format : Format) {rms : Fin 8 → ℝ} {a : ℝ} (low : ∀ c, 0 ≤ rms c)
    (high : ∀ c, rms c ≤ a) (i : Fin 8) : route format rms i ≤ a := by
  have nonneg : 0 ≤ a := (low 0).trans (high 0)
  have common : 0 ≤ min (rms 0) (rms 1) := le_min (low 0) (low 1)
  unfold route
  split_ifs
  · fin_cases i <;> simp [high, nonneg]
  · have left : rms 0 ≤ a + min (rms 0) (rms 1) := (high 0).trans (le_add_of_nonneg_right common)
    have right : rms 1 ≤ a + min (rms 0) (rms 1) := (high 1).trans (le_add_of_nonneg_right common)
    fin_cases i <;> simp [high, nonneg, left, right]
  · fin_cases i <;> simp [high, nonneg]
  · fin_cases i <;> simp [high, nonneg]
  · fin_cases i <;> simp [high, nonneg]
  · have each (c : Fin 8) : (if (c : ℕ) < format.channels then rms c else 0) ≤ a := by
      split_ifs
      · exact high c
      · exact nonneg
    have sum := Finset.sum_le_card_nsmul Finset.univ _ a fun c _ => each c
    rw [Finset.card_univ, Fintype.card_fin, nsmul_eq_mul] at sum
    rw [div_le_iff₀ (by norm_num)]
    norm_num at sum ⊢
    linarith

end Listeningway.Dsp.DirectionalStage

namespace Listeningway.Dsp.UnitRange

open Listeningway.Config
open Listeningway.Dsp.CombTempo (ComputesDft computesDft_exact)
open Listeningway.Dsp.ComposedStages (gain)
open Listeningway.Lib.Clamp
open Listeningway.Snapshot
open Listeningway.Source.SourceFormat
open Listeningway.System.DspThread

/-- What one pass of the pipeline is given. The settings are those of a store. -/
structure Pass where
  samples : List ℝ
  format : Format
  capturedAt : TimePoint
  frameIndex : ℕ
  settings : Settings ℝ
  clock : Clock

namespace Pass

noncomputable def frame (x : Pass) : AnalysisFrame ℝ :=
  AnalysisFrame.ofChunk x.samples x.format x.capturedAt x.frameIndex

noncomputable def cfg (x : Pass) : Settings ℝ := x.settings.clampInPlace

theorem frame_blank (x : Pass) : x.frame.Blank := AnalysisFrame.blank_ofChunk _ _ _ _

end Pass

/-- The documented range of `freq_bands` and `direction8`. -/
structure InUnit (snap : AudioSnapshot ℝ) : Prop where
  bands : ∀ i : Fin kMaxBands, (i : ℕ) < snap.freqBandCount →
    0 ≤ snap.freqBands i ∧ snap.freqBands i ≤ 1
  directions : ∀ i, 0 ≤ snap.direction8 i ∧ snap.direction8 i ≤ 1

/-! ### Arithmetic -/

theorem min_one_mul_le_one_iff {a g : ℝ} (hg : 0 ≤ g) :
    min 1 a * g ≤ 1 ↔ g ≤ 1 ∨ a * g ≤ 1 := by
  constructor
  · intro h
    rcases le_total 1 a with loud | quiet
    · rw [min_eq_left loud, one_mul] at h
      exact .inl h
    · rw [min_eq_right quiet] at h
      exact .inr h
  · rintro (small | fits)
    · calc min 1 a * g ≤ 1 * g := mul_le_mul_of_nonneg_right (min_le_left _ _) hg
        _ ≤ 1 := by rwa [one_mul]
    · exact (mul_le_mul_of_nonneg_right (min_le_right _ _) hg).trans fits

theorem blend_le_one_iff {alpha prev x : ℝ} :
    alpha * prev + (1 - alpha) * x ≤ 1 ↔ (1 - alpha) * (x - 1) ≤ alpha * (1 - prev) := by
  have rearranged : 1 - (alpha * prev + (1 - alpha) * x) =
      alpha * (1 - prev) - (1 - alpha) * (x - 1) := by ring
  rw [← sub_nonneg, rearranged, sub_nonneg]

section Runs

variable [KissFft ℝ]

/-- The snapshots of a run of passes, histories aside. -/
noncomputable def snapshots (p : Pipeline ℝ) : List Pass → List (AudioSnapshot ℝ)
  | [] => []
  | x :: xs =>
    let out := p.process x.frame x.cfg x.clock
    project out.2 out.1.profile :: snapshots out.1 xs

/-! ### The condition on one pass -/

/-- The magnitudes FftStage finds in the frame of a pass. -/
noncomputable def spectrum (c : ComposedStages ℝ) (x : Pass) : Option (List ℝ) :=
  (c.fft.process x.frame x.cfg).2.magnitudes

/-- Every band is amplified by 1 at most, or is quiet enough for its gain. -/
def LevelsFit (c : ComposedStages ℝ) (x : Pass) : Prop :=
  ∀ mags, spectrum c x = some mags → 0 < x.format.sampleRate →
    ∀ b < BandsStage.bandCount x.cfg,
      gain x.cfg b ≤ 1 ∨ c.level x.frame x.cfg mags b * gain x.cfg b ≤ 1

omit [KissFft ℝ] in
/-- The level routed to a bucket, with what its neighbours spread into it, exceeds 1 by no
more than the smoothing holds back: its weight times the room that the previous value has. -/
def BlendFits (c : ComposedStages ℝ) (x : Pass) : Prop :=
  DirectionalStage.NoData x.frame ∨
    let level := DirectionalStage.route x.format (DirectionalStage.rms x.frame)
    let spread := clamp x.cfg.frequency.spatialSpread 0 0.5
    let alpha := clamp x.cfg.frequency.spatialSmoothing 0 0.95
    ∀ i, (1 - alpha) * (level i + spread * DirectionalStage.neighbours level i - 1) ≤
      alpha * (1 - c.directional.prevDir8 i)

def Fits (c : ComposedStages ℝ) (x : Pass) : Prop := LevelsFit c x ∧ BlendFits c x

/-- Every pass of a run meets the condition in the state it finds. -/
def AllFit (c : ComposedStages ℝ) : List Pass → Prop
  | [] => True
  | x :: xs => Fits c x ∧ AllFit (c.process x.frame x.cfg).1 xs

/-! ### Bands through the stages -/

section Passes

variable (c : ComposedStages ℝ) (x : Pass)

theorem level_nonneg {mags : List ℝ} (found : spectrum c x = some mags) (b : ℕ) :
    0 ≤ c.level x.frame x.cfg mags b :=
  ComposedStages.level_nonneg x.frame_blank.magnitudes
    (le_trans (by norm_num) x.settings.inRange_clampInPlace.frequency.bandNorm.1) found b

omit [KissFft ℝ] in
theorem gain_nonneg (b : ℕ) : 0 ≤ gain x.cfg b :=
  ComposedStages.gain_nonneg x.settings.inRange_clampInPlace b

theorem bands_in_unit_iff (profile : Profile ℝ) :
    (∀ i : Fin kMaxBands,
      (i : ℕ) < (project (c.process x.frame x.cfg).2 profile).freqBandCount →
        0 ≤ (project (c.process x.frame x.cfg).2 profile).freqBands i ∧
          (project (c.process x.frame x.cfg).2 profile).freqBands i ≤ 1) ↔ LevelsFit c x := by
  have shown := c.srcBands_eq x.cfg x.frame_blank
  rw [← spectrum] at shown
  have short : (srcBands (c.process x.frame x.cfg).2).length ≤ kMaxBands := by
    rw [shown]
    cases spectrum c x with
    | none => exact Nat.zero_le _
    | some mags =>
      dsimp only
      split_ifs
      · rw [List.length_map, List.length_range]
        exact BandsStage.bandCount_le x.cfg
      · exact Nat.zero_le _
  refine (cap_forall (P := fun v => 0 ≤ v ∧ v ≤ 1) short).trans ?_
  rw [shown]
  cases hs : spectrum c x with
  | none => simp [LevelsFit, hs]
  | some mags =>
    dsimp only
    by_cases rate : 0 < x.frame.format.sampleRate
    · rw [if_pos rate, List.forall_mem_map]
      constructor
      · intro h mags' hm _ b hb
        obtain rfl := Option.some.inj (hs.symm.trans hm)
        exact (min_one_mul_le_one_iff (gain_nonneg x b)).mp (h b (List.mem_range.mpr hb)).2
      · intro fit b hb
        have level := level_nonneg c x hs b
        refine ⟨mul_nonneg (le_min zero_le_one level) (gain_nonneg x b), ?_⟩
        exact (min_one_mul_le_one_iff (gain_nonneg x b)).mpr
          (fit mags hs rate b (List.mem_range.mp hb))
    · rw [if_neg rate]
      exact ⟨fun _ _ _ high => absurd high rate, fun _ _ hv => absurd hv List.not_mem_nil⟩

theorem directions_in_unit_iff
    (held : ∀ i, 0 ≤ c.directional.prevDir8 i ∧ c.directional.prevDir8 i ≤ 1) :
    (∀ i, 0 ≤ (c.process x.frame x.cfg).1.directional.prevDir8 i ∧
      (c.process x.frame x.cfg).1.directional.prevDir8 i ≤ 1) ↔ BlendFits c x := by
  rw [(c.process_directional x.frame x.cfg).1, DirectionalStage.process, BlendFits]
  by_cases empty : DirectionalStage.NoData x.frame
  · rw [if_pos empty]
    exact iff_of_true held (.inl empty)
  · rw [if_neg empty, or_iff_right empty]
    refine forall_congr' fun i => ?_
    have alpha : 0 ≤ DirectionalStage.smoothing x.cfg := le_clamp _ (by norm_num)
    have spread : 0 ≤ clamp x.cfg.frequency.spatialSpread 0 0.5 := le_clamp _ (by norm_num)
    dsimp only
    rw [max_le_iff, DirectionalStage.smooth_eq alpha, DirectionalStage.measured,
      DirectionalStage.spread_eq spread]
    exact ⟨fun h => blend_le_one_iff.mp h.2.2,
      fun h => ⟨le_max_left _ _, zero_le_one, blend_le_one_iff.mpr h⟩⟩

end Passes

/-! ### Runs -/

theorem process_stages {p : Pipeline ℝ} {c : ComposedStages ℝ} (shape : p.stages = c.stages)
    (x : Pass) :
    (p.process x.frame x.cfg x.clock).1.stages = (c.process x.frame x.cfg).1.stages ∧
      (p.process x.frame x.cfg x.clock).2 = (c.process x.frame x.cfg).2 := by
  rw [Pipeline.process, shape, ComposedStages.runStages_stages]
  exact ⟨rfl, rfl⟩

theorem pass_in_unit_iff {c : ComposedStages ℝ} (x : Pass) (profile : Profile ℝ)
    (held : ∀ i, 0 ≤ c.directional.prevDir8 i ∧ c.directional.prevDir8 i ≤ 1) :
    InUnit (project (c.process x.frame x.cfg).2 profile) ↔ Fits c x := by
  have buckets : (project (c.process x.frame x.cfg).2 profile).direction8 =
      (c.process x.frame x.cfg).1.directional.prevDir8 := by
    obtain ⟨state, out⟩ := c.process_directional x.frame x.cfg
    rw [state]
    exact congrArg (fun d => d.getD fun _ => 0)
      (out.trans (DirectionalStage.process_direction8 _ _ _))
  constructor
  · rintro ⟨bands, directions⟩
    rw [buckets] at directions
    exact ⟨(bands_in_unit_iff c x profile).mp bands,
      (directions_in_unit_iff c x held).mp directions⟩
  · rintro ⟨bands, directions⟩
    refine ⟨(bands_in_unit_iff c x profile).mpr bands, ?_⟩
    rw [buckets]
    exact (directions_in_unit_iff c x held).mpr directions

theorem run_in_unit_iff {p : Pipeline ℝ} {c : ComposedStages ℝ} (shape : p.stages = c.stages)
    (held : ∀ i, 0 ≤ c.directional.prevDir8 i ∧ c.directional.prevDir8 i ≤ 1)
    (passes : List Pass) :
    (∀ snap ∈ snapshots p passes, InUnit snap) ↔ AllFit c passes := by
  induction passes generalizing p c with
  | nil => simp [snapshots, AllFit]
  | cons x xs ih =>
    obtain ⟨next, out⟩ := process_stages shape x
    rw [snapshots, AllFit, List.forall_mem_cons, out]
    have first := pass_in_unit_iff x (p.process x.frame x.cfg x.clock).1.profile held
    constructor
    · rintro ⟨now, later⟩
      have fits := first.mp now
      exact ⟨fits, (ih next ((directions_in_unit_iff c x held).mpr fits.2)).mp later⟩
    · rintro ⟨fits, later⟩
      exact ⟨first.mpr fits, (ih next ((directions_in_unit_iff c x held).mpr fits.2)).mpr later⟩

end Runs

/-! ### Conditions on settings and samples -/

namespace Pass

/-- Every band is amplified by 1 at most, or the samples are quiet enough for its gain. -/
def BandsFit (x : Pass) : Prop :=
  ∀ b < BandsStage.bandCount x.cfg,
    gain x.cfg b ≤ 1 ∨ x.frame.total * x.cfg.frequency.bandNorm * gain x.cfg b ≤ 1

/-- What is routed to a bucket and what its neighbours spread into it come to 1 at most. -/
def DirectionsFit (x : Pass) : Prop :=
  let level := DirectionalStage.route x.format (DirectionalStage.rms x.frame)
  ∀ i, level i + clamp x.cfg.frequency.spatialSpread 0 0.5 *
    DirectionalStage.neighbours level i ≤ 1

theorem rms_nonneg (x : Pass) (c : Fin 8) : 0 ≤ DirectionalStage.rms x.frame c :=
  Real.sqrt_nonneg _

theorem rms_le {x : Pass} {a : ℝ} (inside : ∀ s ∈ x.samples, |s| ≤ a) (nonneg : 0 ≤ a)
    (c : Fin 8) : DirectionalStage.rms x.frame c ≤ a := by
  have square (i : ℕ) : x.frame.sample i c * x.frame.sample i c ≤ a * a := by
    have small : |x.frame.sample i c| ≤ a :=
      BandsStage.getD_mem (P := fun s => |s| ≤ a) inside (abs_zero.trans_le nonneg) _
    calc x.frame.sample i c * x.frame.sample i c = |x.frame.sample i c| * |x.frame.sample i c| :=
          (abs_mul_abs_self _).symm
      _ ≤ a * a := mul_self_le_mul_self (abs_nonneg _) small
  have sum : (if (c : ℕ) < x.frame.format.channels then
      ∑ i ∈ Finset.range x.frame.frames, x.frame.sample i c * x.frame.sample i c else 0) ≤
        a * a * x.frame.frames := by
    split_ifs
    · refine (Finset.sum_le_sum fun i _ => square i).trans_eq ?_
      rw [Finset.sum_const, Finset.card_range, nsmul_eq_mul, mul_comm]
    · exact mul_nonneg (mul_self_nonneg a) (Nat.cast_nonneg _)
  refine Real.sqrt_le_iff.mpr ⟨nonneg, ?_⟩
  rw [pow_two]
  exact div_le_of_le_mul₀ (Nat.cast_nonneg _) (mul_self_nonneg a) sum

theorem directionsFit_of_two {x : Pass}
    (two : x.format.channels = 1 ∨ x.format.channels = 2 ∨ x.format.layout = .stereo)
    (inside : ∀ s ∈ x.samples, |s| ≤ 1) : x.DirectionsFit := by
  intro i
  have narrow : clamp x.cfg.frequency.spatialSpread 0 0.5 ≤ 1 :=
    (clamp_le _ (by norm_num)).trans (by norm_num)
  have spread : 0 ≤ clamp x.cfg.frequency.spatialSpread 0 0.5 := le_clamp _ (by norm_num)
  rcases DirectionalStage.route_two two (rms_nonneg x) (rms_le inside zero_le_one) i with
    ⟨own, none⟩ | ⟨none, others⟩
  · rw [none, mul_zero, add_zero]
    exact own
  · rw [none, zero_add]
    exact (mul_le_of_le_one_right spread others).trans narrow

theorem directionsFit_of_quiet {x : Pass} {a : ℝ} (inside : ∀ s ∈ x.samples, |s| ≤ a)
    (nonneg : 0 ≤ a) (room : a * (1 + 2 * clamp x.cfg.frequency.spatialSpread 0 0.5) ≤ 1) :
    x.DirectionsFit := by
  intro i
  have level := DirectionalStage.route_le x.format (rms_nonneg x) (rms_le inside nonneg)
  have spread : 0 ≤ clamp x.cfg.frequency.spatialSpread 0 0.5 := le_clamp _ (by norm_num)
  have shares := mul_le_mul_of_nonneg_left (add_le_add (level (i + 7)) (level (i + 1))) spread
  rw [DirectionalStage.neighbours]
  linarith [level i]

end Pass

section Enough

variable [kiss : KissFft ℝ] {c : ComposedStages ℝ} {x : Pass}

theorem levelsFit_of_bandsFit (computes : ∀ n, ComputesDft kiss n) (planned : c.fft.Planned)
    (fit : x.BandsFit) : LevelsFit c x := by
  intro mags found _ b inside
  have norm : 0 ≤ x.cfg.frequency.bandNorm :=
    le_trans (by norm_num) x.settings.inRange_clampInPlace.frequency.bandNorm.1
  have level := ComposedStages.level_le computes planned x.frame_blank.magnitudes norm found b
  exact (fit b inside).imp_right fun quiet =>
    (mul_le_mul_of_nonneg_right level (gain_nonneg x b)).trans quiet

omit kiss in
theorem blendFits_of_directionsFit
    (held : ∀ i, 0 ≤ c.directional.prevDir8 i ∧ c.directional.prevDir8 i ≤ 1)
    (fit : x.DirectionsFit) : BlendFits c x := by
  refine .inr fun i => ?_
  have alpha : 0 ≤ clamp x.cfg.frequency.spatialSmoothing 0 0.95 := le_clamp _ (by norm_num)
  have weight : clamp x.cfg.frequency.spatialSmoothing 0 0.95 ≤ 1 :=
    (clamp_le _ (by norm_num)).trans (by norm_num)
  calc _ ≤ 0 := mul_nonpos_of_nonneg_of_nonpos (sub_nonneg.mpr weight) (sub_nonpos.mpr (fit i))
    _ ≤ _ := mul_nonneg alpha (sub_nonneg.mpr (held i).2)

theorem planned_next (planned : c.fft.Planned) : (c.process x.frame x.cfg).1.fft.Planned := by
  rw [ComposedStages.process_states]
  exact FftStage.planned_process planned _ _

theorem allFit_of_fit (computes : ∀ n, ComputesDft kiss n) (planned : c.fft.Planned)
    (held : ∀ i, 0 ≤ c.directional.prevDir8 i ∧ c.directional.prevDir8 i ≤ 1) {passes : List Pass}
    (fit : ∀ x ∈ passes, x.BandsFit ∧ x.DirectionsFit) : AllFit c passes := by
  induction passes generalizing c with
  | nil => trivial
  | cons x xs ih =>
    obtain ⟨⟨bands, directions⟩, rest⟩ := List.forall_mem_cons.mp fit
    have blend := blendFits_of_directionsFit held directions
    exact ⟨⟨levelsFit_of_bandsFit computes planned bands, blend⟩,
      ih (planned_next planned) ((directions_in_unit_iff c x held).mpr blend) rest⟩

/-- The snapshots of a run stay in range as long as settings and samples of every pass fit. -/
theorem stays_in_unit (computes : ∀ n, ComputesDft kiss n) {passes : List Pass}
    (fit : ∀ x ∈ passes, x.BandsFit ∧ x.DirectionsFit) :
    ∀ snap ∈ snapshots Pipeline.composePipeline passes, InUnit snap :=
  (run_in_unit_iff ComposedStages.composePipeline_stages (fun _ => ⟨le_rfl, zero_le_one⟩)
    passes).mpr
    (allFit_of_fit computes FftStage.planned_initial (fun _ => ⟨le_rfl, zero_le_one⟩) fit)

end Enough

/-- The defaults with all five knobs at `v`. -/
noncomputable def levelKnobs (v : ℝ) : Settings ℝ :=
  { Settings.defaults ℝ with
    frequency := { FrequencyConfig.defaults ℝ with equalizerBands := fun _ => v } }

theorem gain_levelKnobs {v : ℝ} (low : 0 ≤ v) (high : v ≤ 4) (b : ℕ) :
    gain (levelKnobs v).clampInPlace b = v :=
  ComposedStages.gain_level (by decide : BandScale.mel ≠ .log)
    (fun _ => clamp_of_mem low (high.trans (by norm_num))) b

/-- Full scale on the left and the right, with knobs that change nothing. -/
noncomputable def loudStereo : Pass where
  samples := [1, -1, -1, 1]
  format := ⟨48000, 2, .stereo⟩
  capturedAt := 1
  frameIndex := 0
  settings := levelKnobs 1
  clock := ⟨0, fun _ => 0, fun _ => 0, 0⟩

/-- A tenth on all channels of one 5.1 frame, with all knobs wide open. -/
noncomputable def quietSurround : Pass where
  samples := [0.1, 0.1, 0.1, 0.1, 0.1, 0.1]
  format := ⟨48000, 6, .surround51⟩
  capturedAt := 2
  frameIndex := 1
  settings := levelKnobs 4
  clock := ⟨0, fun _ => 0, fun _ => 0, 0⟩

theorem loud_and_quiet_in_unit :
    (∀ s ∈ loudStereo.samples, |s| = 1) ∧ (∀ b, gain quietSurround.cfg b = 4) ∧
      ∀ snap ∈ snapshots Pipeline.composePipeline [loudStereo, quietSurround], InUnit snap := by
  have loud : ∀ s ∈ loudStereo.samples, |s| = 1 := by
    simp [loudStereo]
  have wide : ∀ b, gain quietSurround.cfg b = 4 := gain_levelKnobs (by norm_num) le_rfl
  refine ⟨loud, wide, stays_in_unit computesDft_exact ?_⟩
  rw [List.forall_mem_cons, List.forall_mem_singleton]
  refine ⟨⟨fun b _ => .inl (gain_levelKnobs zero_le_one (by norm_num) b).le, ?_⟩,
    fun b _ => .inr ?_, ?_⟩
  · exact Pass.directionsFit_of_two (.inr (.inl rfl)) fun s listed => (loud s listed).le
  · have total : quietSurround.frame.total = 0.1 := by
      change (quietSurround.samples.map fun s => |s|).sum / ((6 : ℕ) : ℝ) = 0.1
      norm_num [quietSurround]
    have norm := quietSurround.settings.inRange_clampInPlace.frequency.bandNorm.2
    change quietSurround.cfg.frequency.bandNorm ≤ 1 at norm
    rw [wide, total]
    linarith
  · have tenth : ∀ s ∈ quietSurround.samples, |s| ≤ 0.1 := by
      norm_num [quietSurround]
    refine Pass.directionsFit_of_quiet tenth (by norm_num) ?_
    have spread : clamp quietSurround.cfg.frequency.spatialSpread 0 0.5 ≤ 0.5 :=
      clamp_le _ (by norm_num)
    linarith

/-- Full scale on all channels of one 5.1 frame, under the default settings. -/
noncomputable def fullScale : Pass where
  samples := [1, 1, 1, 1, 1, 1]
  format := ⟨48000, 6, .surround51⟩
  capturedAt := 1
  frameIndex := 0
  settings := Settings.defaults ℝ
  clock := ⟨0, fun _ => 0, fun _ => 0, 0⟩

private theorem fullScale_rms {c : Fin 8} (h : (c : ℕ) < 6) :
    DirectionalStage.rms fullScale.frame c = 1 := by
  have frames : fullScale.frame.frames = 1 := rfl
  have channels : fullScale.frame.format.channels = 6 := rfl
  have sample : fullScale.frame.sample 0 c = 1 := by
    change ([1, 1, 1, 1, 1, 1] : List ℝ).getD (0 * 6 + c) 0 = 1
    rw [Nat.zero_mul, Nat.zero_add, List.getD_eq_getElem _ _ h]
    exact List.eq_of_mem_replicate (n := 6) (List.getElem_mem h)
  rw [DirectionalStage.rms, channels, if_pos h, frames, Finset.sum_range_one, sample]
  change Real.sqrt (1 * 1 / ((1 : ℕ) : ℝ)) = 1
  rw [one_mul, Nat.cast_one, div_one, Real.sqrt_one]

/-- The front bucket gets 1 from the center, a quarter of each front side, and is
smoothed against 0: 0.9 * 1.5. -/
theorem front_exceeds_one :
    ¬ ∀ passes : List Pass,
      (∀ x ∈ passes, x.format.valid = true ∧ ∀ s ∈ x.samples, -1 ≤ s ∧ s ≤ 1) →
        ∀ snap ∈ snapshots Pipeline.composePipeline passes, InUnit snap := by
  intro always
  have inside : ∀ x ∈ [fullScale], x.format.valid = true ∧ ∀ s ∈ x.samples, -1 ≤ s ∧ s ≤ 1 := by
    intro x hx
    obtain rfl := List.mem_singleton.mp hx
    refine ⟨rfl, fun s hs => ?_⟩
    simp only [fullScale, List.mem_cons, List.not_mem_nil, or_false, or_self] at hs
    rw [hs]
    norm_num
  obtain ⟨⟨-, fits⟩, -⟩ := (run_in_unit_iff ComposedStages.composePipeline_stages
    (fun _ => ⟨le_rfl, zero_le_one⟩) [fullScale]).mp (always [fullScale] inside)
  rcases fits with empty | fits
  · exact absurd empty (by decide)
  · have front := fits 0
    have level (i j : Fin 8) (hi : DirectionalStage.route fullScale.format
        (DirectionalStage.rms fullScale.frame) i = DirectionalStage.rms fullScale.frame j)
        (hj : (j : ℕ) < 6) : DirectionalStage.route fullScale.format
          (DirectionalStage.rms fullScale.frame) i = 1 := hi.trans (fullScale_rms hj)
    have spread : clamp fullScale.cfg.frequency.spatialSpread 0 0.5 = 0.25 := by
      change clamp (0.25 : ℝ) 0 0.5 = 0.25
      exact clamp_of_mem (by norm_num) (by norm_num)
    have alpha : clamp fullScale.cfg.frequency.spatialSmoothing 0 0.95 = 0.1 := by
      change clamp (0.10 : ℝ) 0 0.95 = 0.1
      rw [clamp_of_mem (by norm_num) (by norm_num)]
      norm_num
    have previous : (ComposedStages.initial : ComposedStages ℝ).directional.prevDir8 0 = 0 := rfl
    rw [spread, alpha, previous, DirectionalStage.neighbours, level 0 2 rfl (by decide),
      level (0 + 7) 0 rfl (by decide), level (0 + 1) 1 rfl (by decide)] at front
    norm_num at front

end Listeningway.Dsp.UnitRange
