/- Listeningway/Dsp/Footprint
   source: src/audio/dsp/i_dsp_stage.h; src/audio/dsp/pipeline.cpp
   digest: A stage changes only the fields it declares to write, and so does a run of stages. -/

import Listeningway.Dsp.Pipeline

set_option autoImplicit false
set_option relaxedAutoImplicit false

namespace Listeningway.Dsp

open Listeningway.Config
open Listeningway.Source.SourceFormat

/-- The type of a field. -/
@[reducible] def FieldId.Carrier (K : Type) : FieldId → Type
  | .format => Format
  | .samples | .rawBands | .bands => List K
  | .magnitudes | .phases => Option (List K)
  | .bands16 => Fin 16 → K
  | .bands32 => Fin 32 → K
  | .tempoDetected | .beatAutoLocked => Option Bool
  | .direction8 => Option (Fin 8 → K)
  | _ => Option K

/-- The value of a field. -/
def AnalysisFrame.get {K : Type} (f : AnalysisFrame K) : (i : FieldId) → i.Carrier K
  | .samples => f.samples
  | .format => f.format
  | .volume => f.volume
  | .volumeLeft => f.volumeLeft
  | .volumeRight => f.volumeRight
  | .volumeNorm => f.volumeNorm
  | .volumeAtt => f.volumeAtt
  | .magnitudes => f.magnitudes
  | .phases => f.phases
  | .rawBands => f.rawBands
  | .bands => f.bands
  | .bands16 => f.bands16
  | .bands32 => f.bands32
  | .bassNorm => f.bassNorm
  | .midNorm => f.midNorm
  | .trebNorm => f.trebNorm
  | .bassAtt => f.bassAtt
  | .midAtt => f.midAtt
  | .trebAtt => f.trebAtt
  | .spectralCentroid => f.spectralCentroid
  | .loudness => f.loudness
  | .fluxTotal => f.fluxTotal
  | .fluxLow => f.fluxLow
  | .fluxMid => f.fluxMid
  | .fluxHigh => f.fluxHigh
  | .beat => f.beat
  | .beatPhase => f.beatPhase
  | .tempoBpm => f.tempoBpm
  | .tempoConfidence => f.tempoConfidence
  | .tempoDetected => f.tempoDetected
  | .beatPulseStrength => f.beatPulseStrength
  | .beatAutoLocked => f.beatAutoLocked
  | .phaseVolume => f.phaseVolume
  | .phaseBass => f.phaseBass
  | .phaseTreble => f.phaseTreble
  | .audioPan => f.audioPan
  | .direction8 => f.direction8

namespace AnalysisFrame

variable {K : Type} (f : AnalysisFrame K) (n : ℕ)

/-- The frame under another index. -/
def renumber : AnalysisFrame K := { f with frameIndex := n }

@[simp] theorem renumber_samples : (f.renumber n).samples = f.samples := rfl

@[simp] theorem renumber_format : (f.renumber n).format = f.format := rfl

@[simp] theorem renumber_frames : (f.renumber n).frames = f.frames := rfl

@[simp] theorem renumber_magnitudes : (f.renumber n).magnitudes = f.magnitudes := rfl

@[simp] theorem renumber_bands : (f.renumber n).bands = f.bands := rfl

end AnalysisFrame

/-- Nothing outside `ws` differs; the capture data without a name never does. -/
structure Touches {K : Type} (ws : List FieldId) (f g : AnalysisFrame K) : Prop where
  get : ∀ i ∉ ws, g.get i = f.get i
  capturedAt : g.capturedAt = f.capturedAt
  frameIndex : g.frameIndex = f.frameIndex

namespace Touches

variable {K : Type} {ws vs : List FieldId} {f g h : AnalysisFrame K}

theorem rfl' : Touches ws f f := ⟨fun _ _ => rfl, rfl, rfl⟩

theorem trans (fg : Touches ws f g) (gh : Touches vs g h) : Touches (ws ++ vs) f h where
  get i hi := by
    rw [List.mem_append, not_or] at hi
    exact (gh.get i hi.2).trans (fg.get i hi.1)
  capturedAt := gh.capturedAt.trans fg.capturedAt
  frameIndex := gh.frameIndex.trans fg.frameIndex

end Touches

variable {K : Type} [Field K] [LinearOrder K] [FloorRing K] [Cmath K] [KissFft K]

namespace IDspStage

open AnalysisFrame

theorem touches (stage : IDspStage K) (frame : AnalysisFrame K) (cfg : Settings K) :
    Touches stage.writes frame (stage.process frame cfg).2 := by
  cases stage <;>
    simp only [writes, process, VolumeStage.process, FftStage.process, BandsStage.process,
      LogBoostStage.process, EqualizerStage.process, BandNormStage.process,
      SpectralCentroidStage.process, FluxStage.process, BeatStage.process,
      ChronotensityStage.process, PanStage.process, DirectionalStage.process,
      LoudnessStage.process] <;>
    repeat' split
  all_goals
    refine ⟨fun i hi => ?_, rfl, rfl⟩
    cases i <;> first | rfl | exact absurd (by decide) hi

theorem process_renumber (stage : IDspStage K) (frame : AnalysisFrame K) (cfg : Settings K)
    (n : ℕ) :
    stage.process (frame.renumber n) cfg =
      ((stage.process frame cfg).1, (stage.process frame cfg).2.renumber n) := by
  cases stage with
  | volume st =>
    simp only [process, VolumeStage.process]
    rw [renumber_format, renumber_samples, renumber_frames]
    split_ifs <;> rfl
  | fft st =>
    simp only [process, FftStage.process]
    split_ifs <;> rfl
  | bands st =>
    simp only [process, BandsStage.process]
    rw [renumber_format, renumber_magnitudes]
    cases frame.magnitudes with
    | none => rfl
    | some mags =>
      dsimp only
      split_ifs <;> rfl
  | logBoost =>
    simp only [process, LogBoostStage.process]
    split_ifs <;> rfl
  | equalizer => rfl
  | bandNorm st =>
    simp only [process, BandNormStage.process]
    rw [renumber_bands]
    split_ifs <;> rfl
  | spectralCentroid =>
    simp only [process, SpectralCentroidStage.process]
    rw [renumber_format, renumber_magnitudes]
    cases frame.magnitudes with
    | none => rfl
    | some mags =>
      dsimp only
      split_ifs <;> rfl
  | flux st =>
    simp only [process, FluxStage.process]
    rw [renumber_format, renumber_magnitudes]
    cases frame.magnitudes with
    | none => rfl
    | some mags =>
      dsimp only
      split_ifs <;> rfl
  | beat st => rfl
  | chronotensity st => rfl
  | pan st =>
    simp only [process, PanStage.process]
    split_ifs <;> rfl
  | directional st =>
    simp only [process, DirectionalStage.process]
    by_cases empty : DirectionalStage.NoData frame
    · have empty' : DirectionalStage.NoData (frame.renumber n) := empty
      rw [if_pos empty, if_pos empty']
      rfl
    · have empty' : ¬ DirectionalStage.NoData (frame.renumber n) := empty
      rw [if_neg empty, if_neg empty']
      rfl
  | loudness st =>
    simp only [process, LoudnessStage.process]
    rw [renumber_format, renumber_samples]
    split_ifs <;> rfl

end IDspStage

namespace Pipeline

theorem runStages_append (cfg : Settings K) (front back : List (IDspStage K))
    (frame : AnalysisFrame K) :
    runStages cfg (front ++ back) frame =
      ((runStages cfg front frame).1 ++ (runStages cfg back (runStages cfg front frame).2).1,
        (runStages cfg back (runStages cfg front frame).2).2) := by
  induction front generalizing frame with
  | nil => rfl
  | cons stage front ih => rw [List.cons_append, runStages, ih, runStages, List.cons_append]

/-- A run of stages touches what they declare together. -/
theorem runStages_touches (cfg : Settings K) (stages : List (IDspStage K))
    (frame : AnalysisFrame K) :
    Touches (stages.flatMap IDspStage.writes) frame (runStages cfg stages frame).2 := by
  induction stages generalizing frame with
  | nil => exact Touches.rfl'
  | cons stage rest ih =>
    rw [List.flatMap_cons]
    exact (stage.touches frame cfg).trans (ih _)

theorem runStages_renumber (cfg : Settings K) (stages : List (IDspStage K))
    (frame : AnalysisFrame K) (n : ℕ) :
    runStages cfg stages (frame.renumber n) =
      ((runStages cfg stages frame).1, (runStages cfg stages frame).2.renumber n) := by
  induction stages generalizing frame with
  | nil => rfl
  | cons stage rest ih => rw [runStages, stage.process_renumber, ih, runStages]

end Pipeline

end Listeningway.Dsp
