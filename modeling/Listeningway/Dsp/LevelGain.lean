/- Listeningway/Dsp/LevelGain
   source: src/audio/dsp/stages/volume_stage.h; src/audio/dsp/stages/band_norm_stage.h
   digest: The gain control does not hear the level it is fed at. -/

import Listeningway.Dsp.StageRanges
import Listeningway.Lib.StreamRun

/-!
Two runs at two levels carry running means in the ratio of the levels and the same smoothed
outputs. All three floors are below the level the values keep to, so no floor is ever met.
-/

set_option autoImplicit false
set_option relaxedAutoImplicit false

namespace Listeningway.Dsp

open Listeningway.Config
open Listeningway.Lib.StreamRun
open Set (Icc)

/-! ### Runs of a stage -/

/-- One frame of a run, and whether the stage is reset before it. -/
structure StageCall where
  resetBefore : Bool
  frame : AnalysisFrame ℝ
  cfg : Settings ℝ

/-- Two calls that differ in nothing but what the frames hold. -/
structure StageCall.Parallel (c c' : StageCall) : Prop where
  resetBefore : c'.resetBefore = c.resetBefore
  cfg : c'.cfg = c.cfg
  capturedAt : c'.frame.capturedAt = c.frame.capturedAt

namespace StageRun

variable {σ : Type} (process : σ → AnalysisFrame ℝ → Settings ℝ → σ × AnalysisFrame ℝ) (start : σ)

/-- The stage that processes the frame of a call. -/
def entered (st : σ) (c : StageCall) : σ := if c.resetBefore then start else st

def step (st : σ) (c : StageCall) : σ := (process (entered start st c) c.frame c.cfg).1

/-- The stage that processes frame `k`. -/
def entering (input : ℕ → StageCall) (k : ℕ) : σ :=
  entered start (stateAt (step process start) start input k) (input k)

/-- Frame `k` as the stage leaves it. -/
def published (input : ℕ → StageCall) (k : ℕ) : AnalysisFrame ℝ :=
  (process (entering process start input k) (input k).frame (input k).cfg).2

variable {process start}

theorem entered_related {R : σ → σ → Prop} (first : R start start) {st st' : σ}
    (before : R st st') {c c' : StageCall} (parallel : c.Parallel c') :
    R (entered start st c) (entered start st' c') := by
  unfold entered
  rw [parallel.resetBefore]
  split_ifs
  · exact first
  · exact before

theorem published_related {R : σ → σ → Prop} {Q : AnalysisFrame ℝ → AnalysisFrame ℝ → Prop}
    (first : R start start) {input input' : ℕ → StageCall} {n : ℕ}
    (parallel : ∀ k ≤ n, (input k).Parallel (input' k))
    (keep : ∀ k ≤ n, ∀ st st', R st st' →
      R (process st (input k).frame (input k).cfg).1
          (process st' (input' k).frame (input' k).cfg).1 ∧
        Q (process st (input k).frame (input k).cfg).2
          (process st' (input' k).frame (input' k).cfg).2) :
    Q (published process start input n) (published process start input' n) := by
  have before : R (stateAt (step process start) start input n)
      (stateAt (step process start) start input' n) := by
    apply stateAt_related R first
    intro k early before
    exact (keep k early.le _ _ (entered_related first before (parallel k early.le))).1
  exact (keep n le_rfl _ _ (entered_related first before (parallel n le_rfl))).2

end StageRun

/-! ### One running mean -/

namespace Agc

/-- Both means are unset, or they are in the ratio of the levels and above the floors. -/
def Scaled (g mean mean' : ℝ) : Prop :=
  (mean = 0 ∧ mean' = 0) ∨ (1e-4 ≤ mean ∧ 1e-4 ≤ mean' ∧ mean' = g * mean)

variable {g alpha mean mean' value value' : ℝ} {cfg : AgcConfig ℝ}

theorem scaled_zero (g : ℝ) : Scaled g 0 0 := .inl ⟨rfl, rfl⟩

theorem start_scaled (means : Scaled g mean mean') (loud : 1e-4 ≤ value) (loud' : 1e-4 ≤ value')
    (level : value' = g * value) :
    1e-4 ≤ (if mean ≤ 0 then max value 1e-4 else mean) ∧
      1e-4 ≤ (if mean' ≤ 0 then max value' 1e-4 else mean') ∧
      (if mean' ≤ 0 then max value' 1e-4 else mean') =
        g * if mean ≤ 0 then max value 1e-4 else mean := by
  rcases means with ⟨unset, unset'⟩ | ⟨set, set', ratio⟩
  · rw [if_pos unset.le, if_pos unset'.le, max_eq_left loud, max_eq_left loud']
    exact ⟨loud, loud', level⟩
  · have positive : ¬mean ≤ 0 := by
      rw [not_le]
      exact lt_of_lt_of_le (by norm_num) set
    have positive' : ¬mean' ≤ 0 := by
      rw [not_le]
      exact lt_of_lt_of_le (by norm_num) set'
    rw [if_neg positive, if_neg positive']
    exact ⟨set, set', ratio⟩

theorem le_blend {x y lo : ℝ} (weight : alpha ∈ Icc (0 : ℝ) 1) (hx : lo ≤ x) (hy : lo ≤ y) :
    lo ≤ (1 - alpha) * x + alpha * y :=
  (blend_mem weight ⟨hx, le_max_left x y⟩ ⟨hy, le_max_right x y⟩).1

theorem runningMean_scaled (weight : alpha ∈ Icc (0 : ℝ) 1) (means : Scaled g mean mean')
    (loud : 1e-4 ≤ value) (loud' : 1e-4 ≤ value') (level : value' = g * value) :
    1e-4 ≤ runningMean alpha mean value ∧ 1e-4 ≤ runningMean alpha mean' value' ∧
      runningMean alpha mean' value' = g * runningMean alpha mean value := by
  obtain ⟨start, start', ratio⟩ := start_scaled means loud loud' level
  have floor : (1e-6 : ℝ) ≤ 1e-4 := by norm_num
  unfold runningMean
  dsimp only
  rw [max_eq_left (floor.trans loud), max_eq_left (floor.trans loud')]
  refine ⟨le_blend weight start loud, le_blend weight start' loud', ?_⟩
  rw [ratio, level]
  ring

theorem norm_scaled (positive : 0 < g) (loud : 1e-4 ≤ mean) (loud' : 1e-4 ≤ mean')
    (ratio : mean' = g * mean) (level : value' = g * value) :
    norm value' mean' cfg = norm value mean cfg := by
  have floor : (1e-6 : ℝ) ≤ 1e-4 := by norm_num
  unfold norm
  rw [max_eq_left (floor.trans loud), max_eq_left (floor.trans loud'), ratio, level,
    mul_div_mul_left _ _ positive.ne']

theorem turn_scaled (positive : 0 < g) (weight : alpha ∈ Icc (0 : ℝ) 1)
    (means : Scaled g mean mean') (loud : 1e-4 ≤ value) (loud' : 1e-4 ≤ value')
    (level : value' = g * value) (cfg : AgcConfig ℝ) :
    Scaled g (runningMean alpha mean value) (runningMean alpha mean' value') ∧
      norm value' (runningMean alpha mean' value') cfg =
        norm value (runningMean alpha mean value) cfg := by
  obtain ⟨above, above', ratio⟩ := runningMean_scaled weight means loud loud' level
  exact ⟨.inr ⟨above, above', ratio⟩, norm_scaled positive above above' ratio level⟩

end Agc

/-! ### VolumeStage -/

namespace VolumeStage

/-- The volume before it is cut at full scale. -/
noncomputable def unclamped (c : StageCall) : ℝ :=
  meanAbs c.frame * c.cfg.frequency.amplifierVolume

/-- The second call plays the samples of the first at `g` times the level. -/
structure Amplified (g : ℝ) (c c' : StageCall) : Prop extends c.Parallel c' where
  format : c'.frame.format = c.frame.format
  samples : c'.frame.samples = c.frame.samples.map (g * ·)

/-- The frame holds no data, or a volume between the floor and full scale. -/
def Audible (c : StageCall) : Prop :=
  DirectionalStage.NoData c.frame ∨ unclamped c ∈ Icc (1e-4 : ℝ) 1

variable {g : ℝ} {c c' : StageCall} {st st' : VolumeStage ℝ}

theorem Amplified.frames (amplified : Amplified g c c') : c'.frame.frames = c.frame.frames := by
  unfold AnalysisFrame.frames
  rw [amplified.samples, amplified.format, List.length_map]

theorem Amplified.noData_iff (amplified : Amplified g c c') :
    DirectionalStage.NoData c'.frame ↔ DirectionalStage.NoData c.frame := by
  unfold DirectionalStage.NoData
  rw [amplified.frames, amplified.format, amplified.samples, List.map_eq_nil_iff]

theorem Amplified.sample (amplified : Amplified g c c') (i ch : ℕ) :
    c'.frame.sample i ch = g * c.frame.sample i ch := by
  unfold AnalysisFrame.sample
  rw [amplified.samples, amplified.format]
  have scaled := List.getD_map (l := c.frame.samples) (d := (0 : ℝ))
    (n := i * c.frame.format.channels + ch) (g * ·)
  rwa [mul_zero] at scaled

theorem Amplified.meanAbs (positive : 0 < g) (amplified : Amplified g c c') :
    meanAbs c'.frame = g * meanAbs c.frame := by
  unfold VolumeStage.meanAbs
  rw [amplified.frames, amplified.format, amplified.samples, List.length_map, ← mul_div_assoc,
    Finset.mul_sum]
  congr 1
  apply Finset.sum_congr rfl
  intro i _
  rw [Finset.mul_sum]
  apply Finset.sum_congr rfl
  intro ch _
  rw [amplified.sample, abs_mul, abs_of_pos positive]

theorem Amplified.unclamped (positive : 0 < g) (amplified : Amplified g c c') :
    unclamped c' = g * unclamped c := by
  unfold VolumeStage.unclamped
  rw [amplified.meanAbs positive, amplified.cfg, mul_assoc]

/-- The stage of the louder run beside that of the other. -/
structure Follows (g : ℝ) (st st' : VolumeStage ℝ) : Prop where
  runningMean : Agc.Scaled g st.runningMean st'.runningMean
  att : st'.att = st.att
  lastT : st'.lastT = st.lastT

theorem follows_initial (g : ℝ) : Follows g initial initial where
  runningMean := Agc.scaled_zero g
  att := rfl
  lastT := rfl

/-- The two gain-controlled outputs of the stage. -/
structure SameOutputs (frame frame' : AnalysisFrame ℝ) : Prop where
  volumeNorm : frame'.volumeNorm = frame.volumeNorm
  volumeAtt : frame'.volumeAtt = frame.volumeAtt

theorem process_follows (positive : 0 < g) (amplified : Amplified g c c') (heard : Audible c)
    (heard' : Audible c') (before : Follows g st st') :
    Follows g (st.process c.frame c.cfg).1 (st'.process c'.frame c'.cfg).1 ∧
      SameOutputs (st.process c.frame c.cfg).2 (st'.process c'.frame c'.cfg).2 := by
  by_cases empty : DirectionalStage.NoData c.frame
  · rw [process_noData empty, process_noData (amplified.noData_iff.mpr empty)]
    exact ⟨before, ⟨rfl, rfl⟩⟩
  · have data' := mt amplified.noData_iff.mp empty
    have range := heard.resolve_left empty
    have range' := heard'.resolve_left data'
    obtain ⟨there, whole⟩ := not_or.mp (mt or_assoc.mp empty)
    obtain ⟨there', whole'⟩ := not_or.mp (mt or_assoc.mp data')
    have volume : min 1 (VolumeStage.meanAbs c.frame * c.cfg.frequency.amplifierVolume) =
        VolumeStage.unclamped c := min_eq_right range.2
    have volume' : min 1 (VolumeStage.meanAbs c'.frame * c'.cfg.frequency.amplifierVolume) =
        VolumeStage.unclamped c' := min_eq_right range'.2
    obtain ⟨mean, norm⟩ := Agc.turn_scaled positive
      (Agc.meanAlpha_mem (frameInterval (1 / 60.0) c.frame.capturedAt st.lastT) c.cfg.agc)
      before.runningMean range.1 range'.1 (amplified.unclamped positive) c.cfg.agc
    rw [process, process, if_neg there, if_neg whole, if_neg there', if_neg whole']
    dsimp only
    rw [volume, volume', amplified.capturedAt, before.lastT, amplified.cfg, norm, before.att]
    exact ⟨⟨mean, rfl, rfl⟩, ⟨rfl, rfl⟩⟩

end VolumeStage

/-! ### BandNormStage -/

namespace BandNormStage

/-- Energies of the lower, middle and upper third of the bands. -/
noncomputable def bassEnergy (frame : AnalysisFrame ℝ) : ℝ :=
  energy frame.bands 0 (frame.bands.length / 3)

noncomputable def midEnergy (frame : AnalysisFrame ℝ) : ℝ :=
  energy frame.bands (frame.bands.length / 3) (frame.bands.length * 2 / 3)

noncomputable def trebEnergy (frame : AnalysisFrame ℝ) : ℝ :=
  energy frame.bands (frame.bands.length * 2 / 3) frame.bands.length

/-- The second call shows the bands of the first, each multiplied by `g`. -/
structure Amplified (g : ℝ) (c c' : StageCall) : Prop extends c.Parallel c' where
  bands : c'.frame.bands = c.frame.bands.map (g * ·)

/-- No third of the bands falls under the floor. -/
structure Audible (c : StageCall) : Prop where
  bass : 1e-4 ≤ bassEnergy c.frame
  mid : 1e-4 ≤ midEnergy c.frame
  treb : 1e-4 ≤ trebEnergy c.frame

variable {g : ℝ} {c c' : StageCall} {st st' : BandNormStage ℝ}

theorem Amplified.energy (amplified : Amplified g c c') (lo hi : ℕ) :
    energy c'.frame.bands lo hi = g * energy c.frame.bands lo hi := by
  unfold BandNormStage.energy
  rw [amplified.bands, ← mul_div_assoc, Finset.mul_sum]
  congr 1
  apply Finset.sum_congr rfl
  intro i _
  have scaled := List.getD_map (l := c.frame.bands) (d := (0 : ℝ)) (n := i) (g * ·)
  rwa [mul_zero] at scaled

theorem Amplified.length (amplified : Amplified g c c') :
    c'.frame.bands.length = c.frame.bands.length := by
  rw [amplified.bands, List.length_map]

theorem Audible.bands_ne_nil (heard : Audible c) : c.frame.bands ≠ [] := by
  intro none
  have bass := heard.bass
  unfold bassEnergy BandNormStage.energy at bass
  rw [none] at bass
  norm_num at bass

structure Follows (g : ℝ) (st st' : BandNormStage ℝ) : Prop where
  bassMean : Agc.Scaled g st.bassMean st'.bassMean
  midMean : Agc.Scaled g st.midMean st'.midMean
  trebMean : Agc.Scaled g st.trebMean st'.trebMean
  bassAtt : st'.bassAtt = st.bassAtt
  midAtt : st'.midAtt = st.midAtt
  trebAtt : st'.trebAtt = st.trebAtt
  lastT : st'.lastT = st.lastT

theorem follows_initial (g : ℝ) : Follows g initial initial where
  bassMean := Agc.scaled_zero g
  midMean := Agc.scaled_zero g
  trebMean := Agc.scaled_zero g
  bassAtt := rfl
  midAtt := rfl
  trebAtt := rfl
  lastT := rfl

/-- The six outputs of the stage. -/
structure SameOutputs (frame frame' : AnalysisFrame ℝ) : Prop where
  bassNorm : frame'.bassNorm = frame.bassNorm
  midNorm : frame'.midNorm = frame.midNorm
  trebNorm : frame'.trebNorm = frame.trebNorm
  bassAtt : frame'.bassAtt = frame.bassAtt
  midAtt : frame'.midAtt = frame.midAtt
  trebAtt : frame'.trebAtt = frame.trebAtt

theorem process_follows (positive : 0 < g) (amplified : Amplified g c c') (heard : Audible c)
    (heard' : Audible c') (before : Follows g st st') :
    Follows g (st.process c.frame c.cfg).1 (st'.process c'.frame c'.cfg).1 ∧
      SameOutputs (st.process c.frame c.cfg).2 (st'.process c'.frame c'.cfg).2 := by
  have weight := Agc.meanAlpha_mem (frameInterval (1 / 60.0) c.frame.capturedAt st.lastT)
    c.cfg.agc
  have bass' := heard'.bass
  have mid' := heard'.mid
  have treb' := heard'.treb
  unfold bassEnergy at bass'
  unfold midEnergy at mid'
  unfold trebEnergy at treb'
  rw [amplified.length] at bass' mid' treb'
  obtain ⟨bassMean, bassNorm⟩ := Agc.turn_scaled positive weight before.bassMean heard.bass bass'
    (amplified.energy _ _) c.cfg.agc
  obtain ⟨midMean, midNorm⟩ := Agc.turn_scaled positive weight before.midMean heard.mid mid'
    (amplified.energy _ _) c.cfg.agc
  obtain ⟨trebMean, trebNorm⟩ := Agc.turn_scaled positive weight before.trebMean heard.treb treb'
    (amplified.energy _ _) c.cfg.agc
  unfold bassEnergy at bassMean bassNorm
  unfold midEnergy at midMean midNorm
  unfold trebEnergy at trebMean trebNorm
  rw [process, process, if_neg heard.bands_ne_nil, if_neg heard'.bands_ne_nil]
  dsimp only
  rw [amplified.length, amplified.capturedAt, before.lastT, amplified.cfg, bassNorm, midNorm,
    trebNorm, before.bassAtt, before.midAtt, before.trebAtt]
  exact ⟨⟨bassMean, midMean, trebMean, rfl, rfl, rfl, rfl⟩, ⟨rfl, rfl, rfl, rfl, rfl, rfl⟩⟩

end BandNormStage

/-! ### Runs at two levels -/

/-- As long as nothing is clipped or falls under the floor, the level of a run is not heard in
the gain-controlled outputs. -/
theorem agc_ignores_level {g : ℝ} (positive : 0 < g) (input input' : ℕ → StageCall) (n : ℕ) :
    ((∀ k ≤ n, VolumeStage.Amplified g (input k) (input' k) ∧
        VolumeStage.Audible (input k) ∧ VolumeStage.Audible (input' k)) →
      VolumeStage.SameOutputs
        (StageRun.published VolumeStage.process VolumeStage.initial input n)
        (StageRun.published VolumeStage.process VolumeStage.initial input' n)) ∧
    ((∀ k ≤ n, BandNormStage.Amplified g (input k) (input' k) ∧
        BandNormStage.Audible (input k) ∧ BandNormStage.Audible (input' k)) →
      BandNormStage.SameOutputs
        (StageRun.published BandNormStage.process BandNormStage.initial input n)
        (StageRun.published BandNormStage.process BandNormStage.initial input' n)) := by
  constructor
  · intro level
    apply StageRun.published_related (VolumeStage.follows_initial g)
    · intro k early
      exact (level k early).1.toParallel
    · intro k early st st' before
      obtain ⟨amplified, heard, heard'⟩ := level k early
      exact VolumeStage.process_follows positive amplified heard heard' before
  · intro level
    apply StageRun.published_related (BandNormStage.follows_initial g)
    · intro k early
      exact (level k early).1.toParallel
    · intro k early st st' before
      obtain ⟨amplified, heard, heard'⟩ := level k early
      exact BandNormStage.process_follows positive amplified heard heard' before

/-- A call with one sample and three bands at `level`. -/
noncomputable def steadyCall (level : ℝ) : StageCall where
  resetBefore := false
  frame :=
    { AnalysisFrame.ofChunk [level] { sampleRate := 48000, channels := 1, layout := .mono } 1 0
      with bands := [level, level, level] }
  cfg := Settings.defaults ℝ

theorem audible_volume {level : ℝ} (range : level ∈ Icc (1e-4 : ℝ) 1) :
    VolumeStage.Audible (steadyCall level) := by
  have mean : VolumeStage.unclamped (steadyCall level) = |level| := by
    simp [VolumeStage.unclamped, VolumeStage.meanAbs, AnalysisFrame.frames, AnalysisFrame.sample,
      steadyCall, AnalysisFrame.ofChunk, Settings.defaults, FrequencyConfig.defaults]
  have positive : 0 ≤ level := le_trans (by norm_num) range.1
  right
  rw [mean, abs_of_nonneg positive]
  exact range

theorem audible_bands {level : ℝ} (loud : 1e-4 ≤ level) :
    BandNormStage.Audible (steadyCall level) where
  bass := by simpa [BandNormStage.bassEnergy, BandNormStage.energy, steadyCall] using loud
  mid := by simpa [BandNormStage.midEnergy, BandNormStage.energy, steadyCall] using loud
  treb := by simpa [BandNormStage.trebEnergy, BandNormStage.energy, steadyCall] using loud

/-- A steady tone at a quarter and at half of full scale. -/
theorem steady_tone_at_two_levels :
    VolumeStage.SameOutputs
        (StageRun.published VolumeStage.process VolumeStage.initial (fun _ => steadyCall 0.25) 9)
        (StageRun.published VolumeStage.process VolumeStage.initial (fun _ => steadyCall 0.5) 9) ∧
      BandNormStage.SameOutputs
        (StageRun.published BandNormStage.process BandNormStage.initial
          (fun _ => steadyCall 0.25) 9)
        (StageRun.published BandNormStage.process BandNormStage.initial
          (fun _ => steadyCall 0.5) 9) := by
  have parallel : (steadyCall 0.25).Parallel (steadyCall 0.5) := ⟨rfl, rfl, rfl⟩
  have double : (2 : ℝ) * 0.25 = 0.5 := by norm_num
  obtain ⟨volume, bands⟩ := agc_ignores_level two_pos (fun _ => steadyCall 0.25)
    (fun _ => steadyCall 0.5) 9
  constructor
  · apply volume
    intro k _
    refine ⟨⟨parallel, rfl, ?_⟩, ?_, ?_⟩
    · change [(0.5 : ℝ)] = [2 * 0.25]
      rw [double]
    · exact audible_volume (by constructor <;> norm_num)
    · exact audible_volume (by constructor <;> norm_num)
  · apply bands
    intro k _
    refine ⟨⟨parallel, ?_⟩, ?_, ?_⟩
    · change [(0.5 : ℝ), 0.5, 0.5] = [2 * 0.25, 2 * 0.25, 2 * 0.25]
      rw [double]
    · exact audible_bands (by norm_num)
    · exact audible_bands (by norm_num)

end Listeningway.Dsp
