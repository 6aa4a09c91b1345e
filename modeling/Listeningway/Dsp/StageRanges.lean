/- Listeningway/Dsp/StageRanges
   source: src/audio/dsp/stages/volume_stage.h; src/audio/dsp/stages/band_norm_stage.h;
     src/audio/dsp/stages/spectral_centroid_stage.h; src/audio/dsp/stages/beat_stage.cpp;
     src/audio/dsp/stages/chronotensity_stage.h; src/audio/dsp/stages/pan_stage.h;
     src/audio/dsp/stages/loudness_stage.h
   digest: The range of every scalar that a stage writes, and the state it rests on. -/

import Listeningway.Config.Store
import Listeningway.Dsp.Stages.BeatStage
import Listeningway.Dsp.Stages.LevelStages
import Listeningway.Dsp.Stages.LoudnessStage
import Listeningway.Dsp.Stages.SpatialStages
import Listeningway.Dsp.Stages.SpectrumStages
import Mathlib.Algebra.Order.BigOperators.Group.List
import Mathlib.Algebra.Order.Floor.Ring
import Mathlib.Data.List.GetD

/-!
The times of the frames play no part: every weight that is computed from them is clamped.
-/

set_option autoImplicit false
set_option relaxedAutoImplicit false

namespace Listeningway.Dsp

open Listeningway.Config
open Listeningway.Lib.Clamp
open Set (Icc Ico)

/-- Whatever a stage has written lies in `range`. -/
def Written (range : Set ℝ) (v : Option ℝ) : Prop := ∀ x ∈ v, x ∈ range

theorem written_of_none {range : Set ℝ} {v : Option ℝ} (h : v = none) : Written range v := by
  intro x held
  rw [h] at held
  exact absurd held (Option.not_mem_none x)

theorem written_some {range : Set ℝ} {x : ℝ} (h : x ∈ range) : Written range (some x) := by
  intro y same
  obtain rfl := Option.some.inj same
  exact h

theorem Written.getD {range : Set ℝ} {v : Option ℝ} {d : ℝ} (h : Written range v)
    (default : d ∈ range) : v.getD d ∈ range := by
  cases v with
  | none => exact default
  | some x => exact h x rfl

theorem blend_mem {a x y lo hi : ℝ} (weight : a ∈ Icc (0 : ℝ) 1) (hx : x ∈ Icc lo hi)
    (hy : y ∈ Icc lo hi) : (1 - a) * x + a * y ∈ Icc lo hi := by
  have rest : 0 ≤ 1 - a := sub_nonneg.mpr weight.2
  constructor
  · calc lo = (1 - a) * lo + a * lo := by ring
      _ ≤ (1 - a) * x + a * y :=
        add_le_add (mul_le_mul_of_nonneg_left hx.1 rest) (mul_le_mul_of_nonneg_left hy.1 weight.1)
  · calc (1 - a) * x + a * y ≤ (1 - a) * hi + a * hi :=
        add_le_add (mul_le_mul_of_nonneg_left hx.2 rest) (mul_le_mul_of_nonneg_left hy.2 weight.1)
      _ = hi := by ring

/-! ### Automatic gain control -/

namespace Agc

variable {alpha value att target most : ℝ} {cfg : AgcConfig ℝ}

theorem meanAlpha_mem (dt : ℝ) (cfg : AgcConfig ℝ) : meanAlpha dt cfg ∈ Icc (0 : ℝ) 1 :=
  clamp_mem zero_le_one

theorem runningMean_pos (weight : alpha ∈ Icc (0 : ℝ) 1) (mean value : ℝ) :
    0 < runningMean alpha mean value := by
  have start : 0 < if mean ≤ 0 then max value 1e-4 else mean := by
    split_ifs with unset
    · exact lt_max_of_lt_right (by norm_num)
    · exact not_le.mp unset
  have level : 0 < max value (1e-6 : ℝ) := lt_max_of_lt_right (by norm_num)
  rw [runningMean]
  rcases weight.1.eq_or_lt with still | moves
  · rw [← still, sub_zero, one_mul, zero_mul, add_zero]
    exact start
  · have kept : 0 ≤ 1 - alpha := sub_nonneg.mpr weight.2
    exact add_pos_of_nonneg_of_pos (mul_nonneg kept start.le) (mul_pos moves level)

theorem norm_mem (loud : 0 ≤ value) (cap : 0 ≤ cfg.clampMax) (mean : ℝ) :
    norm value mean cfg ∈ Icc 0 cfg.clampMax := by
  have level : (0 : ℝ) ≤ max mean 1e-6 := le_max_of_le_right (by norm_num)
  exact ⟨le_min (div_nonneg loud level) cap, min_le_right _ _⟩

theorem smooth_mem (dt : ℝ) (cfg : AgcConfig ℝ) (ha : att ∈ Icc 0 most) (ht : target ∈ Icc 0 most) :
    smooth dt cfg att target ∈ Icc 0 most :=
  blend_mem (clamp_mem zero_le_one) ha ht

end Agc

theorem one_le_clampMax {cfg : Settings ℝ} (h : cfg.InRange) : 1 ≤ cfg.agc.clampMax := by
  have lower := h.agc.clampMax.1
  linarith

/-! ### VolumeStage -/

namespace AnalysisFrame

/-- Samples of full scale at most. -/
def Bounded (frame : AnalysisFrame ℝ) : Prop := ∀ s ∈ frame.samples, s ∈ Icc (-1 : ℝ) 1

theorem Bounded.sample {frame : AnalysisFrame ℝ} (h : frame.Bounded) (i c : ℕ) :
    frame.sample i c * frame.sample i c ≤ 1 := by
  have inside : frame.sample i c ∈ Icc (-1 : ℝ) 1 := by
    unfold AnalysisFrame.sample
    rcases Nat.lt_or_ge (i * frame.format.channels + c) frame.samples.length with there | past
    · rw [List.getD_eq_getElem _ _ there]
      exact h _ (List.getElem_mem there)
    · rw [List.getD_eq_default _ _ past]
      norm_num
  nlinarith [inside.1, inside.2]

end AnalysisFrame

namespace VolumeStage

/-- The state between two frames: a mean that is not negative, and an attack/release level
below `most`. -/
structure Tame (most : ℝ) (st : VolumeStage ℝ) : Prop where
  mean : 0 ≤ st.runningMean
  att : st.att ∈ Icc 0 most

structure InRange (frame : AnalysisFrame ℝ) (clampMax most : ℝ) : Prop where
  volume : Written (Icc 0 1) frame.volume
  left : Written (Icc 0 1) frame.volumeLeft
  right : Written (Icc 0 1) frame.volumeRight
  norm : Written (Icc 0 clampMax) frame.volumeNorm
  att : Written (Icc 0 most) frame.volumeAtt

theorem channelRms_mem {frame : AnalysisFrame ℝ} (bounded : frame.Bounded)
    (some : frame.frames ≠ 0) (c : ℕ) : channelRms frame c ∈ Icc (0 : ℝ) 1 := by
  have positive : (0 : ℝ) < frame.frames := Nat.cast_pos.mpr (Nat.pos_of_ne_zero some)
  have total : ∑ i ∈ Finset.range frame.frames, frame.sample i c * frame.sample i c ≤
      frame.frames := by
    calc _ ≤ ∑ _i ∈ Finset.range frame.frames, (1 : ℝ) :=
          Finset.sum_le_sum fun i _ => bounded.sample i c
      _ = frame.frames := by simp
  refine ⟨Real.sqrt_nonneg _, ?_⟩
  exact Real.sqrt_le_one.mpr ((div_le_one positive).mpr total)

theorem meanAbs_nonneg (frame : AnalysisFrame ℝ) : 0 ≤ meanAbs frame :=
  div_nonneg (Finset.sum_nonneg fun _ _ => Finset.sum_nonneg fun _ _ => abs_nonneg _)
    (Nat.cast_nonneg _)

variable {st : VolumeStage ℝ} {frame : AnalysisFrame ℝ} {cfg : Settings ℝ} {most : ℝ}

theorem process_noData (empty : DirectionalStage.NoData frame) (cfg : Settings ℝ) :
    st.process frame cfg = (st, silent frame) := by
  unfold process
  rcases empty with mute | none | short
  · rw [if_pos (.inl mute)]
  · rw [if_pos (.inr none)]
  · rw [if_pos short, ite_self]

theorem silent_inRange (frame : AnalysisFrame ℝ) {clampMax : ℝ} (cap : 1 ≤ clampMax)
    (below : clampMax ≤ most) : InRange (silent frame) clampMax most where
  volume := written_some ⟨le_rfl, zero_le_one⟩
  left := written_some ⟨le_rfl, zero_le_one⟩
  right := written_some ⟨le_rfl, zero_le_one⟩
  norm := written_some ⟨zero_le_one, cap⟩
  att := written_some ⟨zero_le_one, cap.trans below⟩

theorem process_inRange (bounded : frame.Bounded) (settings : cfg.InRange)
    (below : cfg.agc.clampMax ≤ most) (tame : st.Tame most) :
    (st.process frame cfg).1.Tame most ∧
      InRange (st.process frame cfg).2 cfg.agc.clampMax most := by
  have cap := one_le_clampMax settings
  by_cases empty : DirectionalStage.NoData frame
  · rw [process_noData empty]
    exact ⟨tame, silent_inRange frame cap below⟩
  · obtain ⟨heard, whole⟩ := not_or.mp (mt or_assoc.mp empty)
    have amplified : 0 ≤ meanAbs frame * cfg.frequency.amplifierVolume :=
      mul_nonneg (meanAbs_nonneg frame) (zero_le_one.trans settings.frequency.amplifierVolume.1)
    have volume : min 1 (meanAbs frame * cfg.frequency.amplifierVolume) ∈ Icc (0 : ℝ) 1 :=
      ⟨le_min zero_le_one amplified, min_le_left _ _⟩
    rw [process, if_neg heard, if_neg whole]
    have norm (mean : ℝ) := Agc.norm_mem volume.1 (zero_le_one.trans cap) mean
    have target (mean : ℝ) := (norm mean).imp_right fun fits => fits.trans below
    have att (dt mean : ℝ) := Agc.smooth_mem dt cfg.agc tame.att (target mean)
    constructor
    · exact ⟨(Agc.runningMean_pos (Agc.meanAlpha_mem _ _) _ _).le, att _ _⟩
    · refine ⟨written_some volume, written_some (channelRms_mem bounded whole 0), ?_,
        written_some (norm _), written_some (att _ _)⟩
      refine written_some ?_
      split_ifs
      · exact channelRms_mem bounded whole 1
      · exact channelRms_mem bounded whole 0

theorem process_mean (st : VolumeStage ℝ) (frame : AnalysisFrame ℝ) (cfg : Settings ℝ) :
    0 < (st.process frame cfg).1.runningMean ∨
      DirectionalStage.NoData frame ∧ (st.process frame cfg).1.runningMean = st.runningMean := by
  by_cases empty : DirectionalStage.NoData frame
  · rw [process_noData empty]
    exact .inr ⟨empty, rfl⟩
  · obtain ⟨heard, whole⟩ := not_or.mp (mt or_assoc.mp empty)
    rw [process, if_neg heard, if_neg whole]
    exact .inl (Agc.runningMean_pos (Agc.meanAlpha_mem _ _) _ _)

end VolumeStage

/-! ### BandNormStage -/

namespace BandNormStage

structure Tame (most : ℝ) (st : BandNormStage ℝ) : Prop where
  bassMean : 0 ≤ st.bassMean
  midMean : 0 ≤ st.midMean
  trebMean : 0 ≤ st.trebMean
  bassAtt : st.bassAtt ∈ Icc 0 most
  midAtt : st.midAtt ∈ Icc 0 most
  trebAtt : st.trebAtt ∈ Icc 0 most

structure InRange (frame : AnalysisFrame ℝ) (clampMax most : ℝ) : Prop where
  bassNorm : Written (Icc 0 clampMax) frame.bassNorm
  midNorm : Written (Icc 0 clampMax) frame.midNorm
  trebNorm : Written (Icc 0 clampMax) frame.trebNorm
  bassAtt : Written (Icc 0 most) frame.bassAtt
  midAtt : Written (Icc 0 most) frame.midAtt
  trebAtt : Written (Icc 0 most) frame.trebAtt

/-- No field of the stage has been written yet. -/
structure Unwritten (frame : AnalysisFrame ℝ) : Prop where
  bassNorm : frame.bassNorm = none
  midNorm : frame.midNorm = none
  trebNorm : frame.trebNorm = none
  bassAtt : frame.bassAtt = none
  midAtt : frame.midAtt = none
  trebAtt : frame.trebAtt = none

theorem Unwritten.inRange {frame : AnalysisFrame ℝ} (h : Unwritten frame) (clampMax most : ℝ) :
    InRange frame clampMax most where
  bassNorm := written_of_none h.bassNorm
  midNorm := written_of_none h.midNorm
  trebNorm := written_of_none h.trebNorm
  bassAtt := written_of_none h.bassAtt
  midAtt := written_of_none h.midAtt
  trebAtt := written_of_none h.trebAtt

theorem energy_nonneg {bands : List ℝ} (loud : ∀ b ∈ bands, 0 ≤ b) (lo hi : ℕ) :
    0 ≤ energy bands lo hi := by
  refine div_nonneg (Finset.sum_nonneg fun i _ => ?_) (Nat.cast_nonneg _)
  rcases Nat.lt_or_ge i bands.length with there | past
  · rw [List.getD_eq_getElem _ _ there]
    exact loud _ (List.getElem_mem there)
  · rw [List.getD_eq_default _ _ past]

variable {st : BandNormStage ℝ} {frame : AnalysisFrame ℝ} {cfg : Settings ℝ} {most : ℝ}

theorem process_inRange (loud : ∀ b ∈ frame.bands, 0 ≤ b) (unwritten : Unwritten frame)
    (settings : cfg.InRange) (below : cfg.agc.clampMax ≤ most) (tame : st.Tame most) :
    (st.process frame cfg).1.Tame most ∧
      InRange (st.process frame cfg).2 cfg.agc.clampMax most := by
  rw [process]
  split_ifs with none
  · exact ⟨tame, unwritten.inRange _ _⟩
  · have cap := zero_le_one.trans (one_le_clampMax settings)
    have norm (lo hi : ℕ) (mean : ℝ) := Agc.norm_mem (energy_nonneg loud lo hi) cap mean
    have target (lo hi : ℕ) (mean : ℝ) := (norm lo hi mean).imp_right fun fits => fits.trans below
    have mean (dt : ℝ) := Agc.runningMean_pos (Agc.meanAlpha_mem dt cfg.agc)
    have att (dt : ℝ) {old : ℝ} (h : old ∈ Icc 0 most) (lo hi : ℕ) (mean : ℝ) :=
      Agc.smooth_mem dt cfg.agc h (target lo hi mean)
    constructor
    · exact ⟨(mean _ _ _).le, (mean _ _ _).le, (mean _ _ _).le, att _ tame.bassAtt _ _ _,
        att _ tame.midAtt _ _ _, att _ tame.trebAtt _ _ _⟩
    · exact ⟨written_some (norm _ _ _), written_some (norm _ _ _), written_some (norm _ _ _),
        written_some (att _ tame.bassAtt _ _ _), written_some (att _ tame.midAtt _ _ _),
        written_some (att _ tame.trebAtt _ _ _)⟩

theorem process_mean (st : BandNormStage ℝ) (frame : AnalysisFrame ℝ) (cfg : Settings ℝ) :
    (0 < (st.process frame cfg).1.bassMean ∧ 0 < (st.process frame cfg).1.midMean ∧
        0 < (st.process frame cfg).1.trebMean) ∨
      frame.bands = [] ∧ (st.process frame cfg).1 = st := by
  rw [process]
  split_ifs with none
  · exact .inr ⟨none, rfl⟩
  · have mean (dt : ℝ) := Agc.runningMean_pos (Agc.meanAlpha_mem dt cfg.agc)
    exact .inl ⟨mean _ _ _, mean _ _ _, mean _ _ _⟩

end BandNormStage

/-! ### Centroid, beat and phases -/

theorem SpectralCentroidStage.process_inRange (frame : AnalysisFrame ℝ) (cfg : Settings ℝ) :
    Written (Icc 0 1) (SpectralCentroidStage.process frame cfg).spectralCentroid := by
  unfold SpectralCentroidStage.process
  split
  · exact written_some ⟨le_rfl, zero_le_one⟩
  · dsimp only
    split_ifs
    · exact written_some ⟨le_rfl, zero_le_one⟩
    · exact written_some (clamp_mem zero_le_one)
    · exact written_some (clamp_mem zero_le_one)

theorem BeatTracker.beatPhase_mem (st : BeatTracker ℝ) : st.beatPhase ∈ Ico (0 : ℝ) 1 := by
  unfold BeatTracker.beatPhase
  split_ifs
  · exact ⟨le_rfl, zero_lt_one⟩
  · exact ⟨le_clamp _ (by norm_num), (clamp_le _ (by norm_num)).trans_lt (by norm_num)⟩

namespace CombTempo

theorem confidence_mem (obs : Fin kNumTempoStates → ℝ) (peak : Fin kNumTempoStates) :
    confidence obs peak ∈ Icc (0 : ℝ) 1 := by
  unfold confidence
  split_ifs
  · exact clamp_mem zero_le_one
  · exact ⟨le_rfl, zero_le_one⟩

end CombTempo

namespace BeatStage

variable [KissFft ℝ]

theorem updateTempo_confidence {comb : CombTempo ℝ} (h : comb.lastConfidence ∈ Icc (0 : ℝ) 1)
    (odfBuf : OdfBuffer ℝ) (framesSince : ℕ) (rate : ℝ) :
    (updateTempo comb odfBuf framesSince rate).1.lastConfidence ∈ Icc (0 : ℝ) 1 := by
  unfold updateTempo
  split_ifs with due
  · dsimp only
    split_ifs
    · exact CombTempo.confidence_mem _ _
    · exact h
  · exact h

structure InRange (frame : AnalysisFrame ℝ) : Prop where
  beat : Written (Icc 0 1) frame.beat
  phase : Written (Ico 0 1) frame.beatPhase
  confidence : Written (Icc 0 1) frame.tempoConfidence

theorem process_inRange {st : BeatStage ℝ} (h : st.comb.lastConfidence ∈ Icc (0 : ℝ) 1)
    (frame : AnalysisFrame ℝ) (cfg : Settings ℝ) :
    (st.process frame cfg).1.comb.lastConfidence ∈ Icc (0 : ℝ) 1 ∧
      InRange (st.process frame cfg).2 := by
  have kept := updateTempo_confidence h (st.odfBuf.push (onset st.csd frame).2)
    (st.framesSinceTempoUpdate + 1) (st.hopRate frame.capturedAt)
  refine ⟨kept, written_some (clamp_mem zero_le_one), ?_, written_some kept⟩
  exact written_some (BeatTracker.beatPhase_mem _)

end BeatStage

namespace ChronotensityStage

theorem wrap_mem (p : ℝ) : wrap p ∈ Ico (0 : ℝ) 1 :=
  ⟨Int.fract_nonneg p, Int.fract_lt_one p⟩

structure InRange (frame : AnalysisFrame ℝ) : Prop where
  volume : Written (Ico 0 1) frame.phaseVolume
  bass : Written (Ico 0 1) frame.phaseBass
  treble : Written (Ico 0 1) frame.phaseTreble

theorem process_inRange (st : ChronotensityStage ℝ) (frame : AnalysisFrame ℝ)
    (cfg : Settings ℝ) : InRange (st.process frame cfg).2 where
  volume := written_some (wrap_mem _)
  bass := written_some (wrap_mem _)
  treble := written_some (wrap_mem _)

end ChronotensityStage

/-! ### PanStage -/

namespace PanStage

theorem process_inRange {st : PanStage ℝ} (h : st.smoothedPan ∈ Icc (-1 : ℝ) 1)
    (frame : AnalysisFrame ℝ) (cfg : Settings ℝ) :
    (st.process frame cfg).1.smoothedPan ∈ Icc (-1 : ℝ) 1 ∧
      Written (Icc (-1) 1) (st.process frame cfg).2.audioPan := by
  have pan (v : ℝ) : clamp v (-1) 1 ∈ Icc (-1 : ℝ) 1 := clamp_mem (by norm_num)
  unfold process
  dsimp only
  split_ifs with smooth started
  · have divisor : 1 ≤ 1 + clamp cfg.audio.panSmoothing 0 1 * 10.0 := by linarith
    have weight : 1 / (1 + clamp cfg.audio.panSmoothing 0 1 * 10.0) ∈ Icc (0 : ℝ) 1 :=
      ⟨by positivity, (div_le_one (by linarith)).mpr divisor⟩
    have smoothed (v : ℝ) := blend_mem weight h (pan v)
    exact ⟨smoothed _, written_some (smoothed _)⟩
  · exact ⟨pan _, written_some (pan _)⟩
  · exact ⟨h, written_some (pan _)⟩

end PanStage

/-! ### LoudnessStage -/

namespace LoudnessStage

/-- The window while it is in use: the running sum is the sum of the energies in it. -/
structure Rolling (st : LoudnessStage ℝ) : Prop where
  sum : st.runningSum = st.ring.sum
  energies : ∀ e ∈ st.ring, 0 ≤ e
  inside : st.ringPos < st.ring.length

/-- Between two frames the window is in use or will be set up before its next use. -/
structure Tame (st : LoudnessStage ℝ) : Prop where
  sum : st.runningSum = st.ring.sum
  energies : ∀ e ∈ st.ring, 0 ≤ e
  inside : st.configuredFor ≠ 0 → st.ringPos < st.ring.length

theorem Rolling.tame {st : LoudnessStage ℝ} (h : st.Rolling) : st.Tame :=
  ⟨h.sum, h.energies, fun _ => h.inside⟩

/-- The square root is taken of a sum of squares. -/
theorem Tame.runningSum_nonneg {st : LoudnessStage ℝ} (h : st.Tame) : 0 ≤ st.runningSum := by
  rw [h.sum]
  exact List.sum_nonneg h.energies

theorem tame_initial : (initial : LoudnessStage ℝ).Tame where
  sum := rfl
  energies _ absent := absurd absent List.not_mem_nil
  inside unset := absurd rfl unset

theorem rolling_configure {st : LoudnessStage ℝ} (h : st.Tame) {sampleRate : ℕ}
    (rate : sampleRate ≠ 0) (channels : ℕ) (windowMs : ℝ) :
    (st.configure sampleRate channels windowMs).Rolling := by
  unfold configure
  split_ifs with same
  · refine ⟨h.sum, h.energies, h.inside ?_⟩
    rw [← same.1]
    exact rate
  · refine ⟨?_, fun e held => ?_, ?_⟩
    · simp
    · exact (List.eq_of_mem_replicate held).ge
    · rw [List.length_replicate, windowSamples]
      exact Nat.lt_of_lt_of_le (Nat.succ_pos 31) (le_max_left 32 _)

theorem filterFrame_nonneg (st : LoudnessStage ℝ) (frame : AnalysisFrame ℝ) (i : ℕ) :
    0 ≤ (filterFrame st frame i).2 := by
  refine List.sum_nonneg fun e held => ?_
  obtain ⟨o, -, rfl⟩ := List.mem_map.mp held
  exact mul_self_nonneg o.2

theorem rolling_pushFrame {st : LoudnessStage ℝ} (h : st.Rolling) (frame : AnalysisFrame ℝ)
    (i : ℕ) : (pushFrame frame st i).Rolling := by
  have energy := filterFrame_nonneg st frame i
  refine ⟨?_, fun e held => ?_, ?_⟩
  · change st.runningSum - st.ring.getD st.ringPos 0 + (filterFrame st frame i).2 =
      (st.ring.set st.ringPos (filterFrame st frame i).2).sum
    rw [List.sum_set', dif_pos h.inside, List.getD_eq_getElem _ _ h.inside, h.sum]
    ring
  · rcases List.mem_or_eq_of_mem_set held with old | rfl
    · exact h.energies e old
    · exact energy
  · change (st.ringPos + 1) % st.ring.length < (st.ring.set st.ringPos _).length
    rw [List.length_set]
    exact Nat.mod_lt _ (Nat.zero_lt_of_lt h.inside)

theorem rolling_pushFrames {st : LoudnessStage ℝ} (h : st.Rolling) (frame : AnalysisFrame ℝ)
    (frames : List ℕ) : (frames.foldl (pushFrame frame) st).Rolling := by
  induction frames generalizing st with
  | nil => exact h
  | cons i rest ih => exact ih (rolling_pushFrame h frame i)

theorem process_inRange {st : LoudnessStage ℝ} (h : st.Tame) (frame : AnalysisFrame ℝ)
    (cfg : Settings ℝ) :
    (st.process frame cfg).1.Tame ∧ Written (Icc 0 1) (st.process frame cfg).2.loudness := by
  unfold process
  dsimp only
  split_ifs with empty
  · exact ⟨h, written_some ⟨le_rfl, zero_le_one⟩⟩
  · have rate : frame.format.sampleRate ≠ 0 := fun still => empty (.inl still)
    have rolling := rolling_pushFrames
      (rolling_configure h rate frame.format.channels cfg.loudness.windowMs) frame
      (List.range frame.frames)
    refine ⟨rolling.tame, written_some ⟨le_min zero_le_one ?_, min_le_left _ _⟩⟩
    exact Real.sqrt_nonneg _

end LoudnessStage

end Listeningway.Dsp
