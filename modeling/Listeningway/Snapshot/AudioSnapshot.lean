/- Listeningway/Snapshot/AudioSnapshot
   source: src/audio/snapshot/audio_snapshot.h; src/audio/dsp/stage_profile.h
   digest: The value published to the consumers. -/

import Mathlib.Algebra.Ring.Defs
import Mathlib.Data.Int.Notation

set_option autoImplicit false
set_option relaxedAutoImplicit false

namespace Listeningway.Snapshot

def kMaxBands : ℕ := 128

def kVolumeHistoryLength : ℕ := 64

def kBandsHistoryFrames : ℕ := 32

def kMaxStages : ℕ := 16

/-- The name is a 24-byte buffer with its terminator. -/
structure StageTiming (K : Type) where
  name : String
  micros : K

abbrev StageTimings (K : Type) := Fin kMaxStages → StageTiming K

structure AudioSnapshot (K : Type) where
  volume : K
  volumeLeft : K
  volumeRight : K
  volumeNorm : K
  volumeAtt : K
  freqBands : Fin kMaxBands → K
  freqBandsRaw : Fin kMaxBands → K
  freqBandCount : ℕ
  freqBands16 : Fin 16 → K
  freqBands32 : Fin 32 → K
  bassNorm : K
  midNorm : K
  trebNorm : K
  bassAtt : K
  midAtt : K
  trebAtt : K
  spectralCentroid : K
  loudness : K
  beat : K
  beatPhase : K
  tempoBpm : K
  tempoConfidence : K
  tempoDetected : Bool
  beatPulseStrength : K
  beatAutoLocked : Bool
  phaseVolume : K
  phaseBass : K
  phaseTreble : K
  audioPan : K
  audioFormat : K
  direction8 : Fin 8 → K
  volumeHistory : Fin kVolumeHistoryLength → K
  volumeHistoryHead : ℕ
  freqBandsHistory : Fin kBandsHistoryFrames → Fin kMaxBands → K
  freqBandsHistoryHead : ℕ
  stageTimings : StageTimings K
  stageCount : ℕ
  pipelineMicros : K
  frameIndex : ℕ
  capturedAt : ℤ

/-- `AudioSnapshot{}`: the normalised values start at their average, 1. -/
def AudioSnapshot.zero (K : Type) [Zero K] [One K] : AudioSnapshot K where
  volume := 0
  volumeLeft := 0
  volumeRight := 0
  volumeNorm := 1
  volumeAtt := 1
  freqBands _ := 0
  freqBandsRaw _ := 0
  freqBandCount := 0
  freqBands16 _ := 0
  freqBands32 _ := 0
  bassNorm := 1
  midNorm := 1
  trebNorm := 1
  bassAtt := 1
  midAtt := 1
  trebAtt := 1
  spectralCentroid := 0
  loudness := 0
  beat := 0
  beatPhase := 0
  tempoBpm := 0
  tempoConfidence := 0
  tempoDetected := false
  beatPulseStrength := 1
  beatAutoLocked := false
  phaseVolume := 0
  phaseBass := 0
  phaseTreble := 0
  audioPan := 0
  audioFormat := 0
  direction8 _ := 0
  volumeHistory _ := 0
  volumeHistoryHead := 0
  freqBandsHistory _ _ := 0
  freqBandsHistoryHead := 0
  stageTimings _ := ⟨"", 0⟩
  stageCount := 0
  pipelineMicros := 0
  frameIndex := 0
  capturedAt := 0

end Listeningway.Snapshot
