/- Listeningway/Dsp/AnalysisFrame
   source: src/audio/dsp/analysis_frame.h; src/audio/dsp/i_dsp_stage.h
   digest: The carrier between the DSP stages and the names of its fields. -/

import Listeningway.Dsp.Cmath
import Listeningway.Source.SourceFormat

set_option autoImplicit false
set_option relaxedAutoImplicit false

namespace Listeningway.Dsp

open Listeningway.Source.SourceFormat

/-- An absent field is one that no stage has written in this pass. -/
structure AnalysisFrame (K : Type) where
  samples : List K
  format : Format
  capturedAt : TimePoint
  frameIndex : ℕ
  volume : Option K
  volumeLeft : Option K
  volumeRight : Option K
  volumeNorm : Option K
  volumeAtt : Option K
  magnitudes : Option (List K)
  phases : Option (List K)
  rawBands : List K
  bands : List K
  bands16 : Fin 16 → K
  bands32 : Fin 32 → K
  bandCount : Option ℕ
  bassNorm : Option K
  midNorm : Option K
  trebNorm : Option K
  bassAtt : Option K
  midAtt : Option K
  trebAtt : Option K
  spectralCentroid : Option K
  loudness : Option K
  fluxTotal : Option K
  fluxLow : Option K
  fluxMid : Option K
  fluxHigh : Option K
  beat : Option K
  beatPhase : Option K
  tempoBpm : Option K
  tempoConfidence : Option K
  tempoDetected : Option Bool
  beatPulseStrength : Option K
  beatAutoLocked : Option Bool
  phaseVolume : Option K
  phaseBass : Option K
  phaseTreble : Option K
  audioPan : Option K
  direction8 : Option (Fin 8 → K)

namespace AnalysisFrame

variable {K : Type}

/-- The frame as `dsp_thread_main` hands it to the pipeline. -/
def ofChunk [Zero K] (samples : List K) (format : Format) (capturedAt : TimePoint)
    (frameIndex : ℕ) : AnalysisFrame K where
  samples := samples
  format := format
  capturedAt := capturedAt
  frameIndex := frameIndex
  volume := none
  volumeLeft := none
  volumeRight := none
  volumeNorm := none
  volumeAtt := none
  magnitudes := none
  phases := none
  rawBands := []
  bands := []
  bands16 _ := 0
  bands32 _ := 0
  bandCount := none
  bassNorm := none
  midNorm := none
  trebNorm := none
  bassAtt := none
  midAtt := none
  trebAtt := none
  spectralCentroid := none
  loudness := none
  fluxTotal := none
  fluxLow := none
  fluxMid := none
  fluxHigh := none
  beat := none
  beatPhase := none
  tempoBpm := none
  tempoConfidence := none
  tempoDetected := none
  beatPulseStrength := none
  beatAutoLocked := none
  phaseVolume := none
  phaseBass := none
  phaseTreble := none
  audioPan := none
  direction8 := none

/-- `samples.size() / channels`; 0 without channels. -/
def frames (f : AnalysisFrame K) : ℕ := f.samples.length / f.format.channels

/-- `samples[i * channels + c]`. -/
def sample [Zero K] (f : AnalysisFrame K) (i c : ℕ) : K :=
  f.samples.getD (i * f.format.channels + c) 0

end AnalysisFrame

/-- Names of the fields, used by the dependency declarations of the stages. -/
inductive FieldId where
  | samples
  | format
  | volume
  | volumeLeft
  | volumeRight
  | volumeNorm
  | volumeAtt
  | magnitudes
  | phases
  | rawBands
  | bands
  | bands16
  | bands32
  | bassNorm
  | midNorm
  | trebNorm
  | bassAtt
  | midAtt
  | trebAtt
  | spectralCentroid
  | loudness
  | fluxTotal
  | fluxLow
  | fluxMid
  | fluxHigh
  | beat
  | beatPhase
  | tempoBpm
  | tempoConfidence
  | tempoDetected
  | beatPulseStrength
  | beatAutoLocked
  | phaseVolume
  | phaseBass
  | phaseTreble
  | audioPan
  | direction8
  deriving DecidableEq, Repr

end Listeningway.Dsp
