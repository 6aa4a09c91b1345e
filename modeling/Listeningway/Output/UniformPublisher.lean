/- Listeningway/Output/UniformPublisher
   source: src/output/uniform_publisher.cpp; src/output/shader_contract.h
   digest: The uniforms of the shader contract and the floats written to each. -/

import Listeningway.System.DspThread

set_option autoImplicit false
set_option relaxedAutoImplicit false

namespace Listeningway.Output

open Listeningway.Dsp
open Listeningway.Lib
open Listeningway.Snapshot
open Listeningway.System.DspThread

/-- The uniforms of the shader contract, in the order in which they are tested. -/
inductive Uniform where
  | volume
  | volumeLeft
  | volumeRight
  | audioPan
  | audioFormat
  | freqBands
  | numBands
  | beat
  | timeSeconds
  | timePhase60Hz
  | timePhase120Hz
  | totalPhases60Hz
  | totalPhases120Hz
  | direction8
  | front
  | frontRight
  | right
  | backRight
  | back
  | backLeft
  | left
  | frontLeft
  | volumeNorm
  | volumeAtt
  | bassNorm
  | midNorm
  | trebNorm
  | bassAtt
  | midAtt
  | trebAtt
  | freqBands16
  | freqBands32
  | spectralCentroid
  | loudness
  | beatPhase
  | tempoBpm
  | tempoConfidence
  | phaseVolume
  | phaseBass
  | phaseTreble
  | volumeHistory
  | freqBandsHistory
  deriving DecidableEq, Repr

namespace Uniform

/-- The `source` annotation. -/
def source : Uniform → String
  | volume => "listeningway_volume"
  | volumeLeft => "listeningway_volumeleft"
  | volumeRight => "listeningway_volumeright"
  | audioPan => "listeningway_audiopan"
  | audioFormat => "listeningway_audioformat"
  | freqBands => "listeningway_freqbands"
  | numBands => "listeningway_numbands"
  | beat => "listeningway_beat"
  | timeSeconds => "listeningway_timeseconds"
  | timePhase60Hz => "listeningway_timephase60hz"
  | timePhase120Hz => "listeningway_timephase120hz"
  | totalPhases60Hz => "listeningway_totalphases60hz"
  | totalPhases120Hz => "listeningway_totalphases120hz"
  | direction8 => "listeningway_direction8"
  | front => "listeningway_front"
  | frontRight => "listeningway_front_right"
  | right => "listeningway_right"
  | backRight => "listeningway_back_right"
  | back => "listeningway_back"
  | backLeft => "listeningway_back_left"
  | left => "listeningway_left"
  | frontLeft => "listeningway_front_left"
  | volumeNorm => "listeningway_volume_norm"
  | volumeAtt => "listeningway_volume_att"
  | bassNorm => "listeningway_bass_norm"
  | midNorm => "listeningway_mid_norm"
  | trebNorm => "listeningway_treb_norm"
  | bassAtt => "listeningway_bass_att"
  | midAtt => "listeningway_mid_att"
  | trebAtt => "listeningway_treb_att"
  | freqBands16 => "listeningway_freqbands16"
  | freqBands32 => "listeningway_freqbands32"
  | spectralCentroid => "listeningway_spectral_centroid"
  | loudness => "listeningway_loudness"
  | beatPhase => "listeningway_beat_phase"
  | tempoBpm => "listeningway_tempo_bpm"
  | tempoConfidence => "listeningway_tempo_confidence"
  | phaseVolume => "listeningway_phase_volume"
  | phaseBass => "listeningway_phase_bass"
  | phaseTreble => "listeningway_phase_treble"
  | volumeHistory => "listeningway_volume_history"
  | freqBandsHistory => "listeningway_freqbands_history"

def all : List Uniform :=
  [.volume, .volumeLeft, .volumeRight, .audioPan, .audioFormat, .freqBands, .numBands, .beat,
    .timeSeconds, .timePhase60Hz, .timePhase120Hz, .totalPhases60Hz, .totalPhases120Hz,
    .direction8, .front, .frontRight, .right, .backRight, .back, .backLeft, .left, .frontLeft,
    .volumeNorm, .volumeAtt, .bassNorm, .midNorm, .trebNorm, .bassAtt, .midAtt, .trebAtt,
    .freqBands16, .freqBands32, .spectralCentroid, .loudness, .beatPhase, .tempoBpm,
    .tempoConfidence, .phaseVolume, .phaseBass, .phaseTreble, .volumeHistory,
    .freqBandsHistory]

/-- The uniform whose annotation is `src`. -/
def ofSource (src : String) : Option Uniform := all.find? fun u => u.source == src

theorem ofSource_source (u : Uniform) : ofSource u.source = some u := by
  cases u <;> decide

end Uniform

variable {K : Type}

section Histories

variable [Zero K]

/-- `hist_linear`. -/
def histLinear (snap : AudioSnapshot K) (i : ℕ) : K :=
  snap.volumeHistory (HistoryRing.slot kVolumeHistoryLength (snap.volumeHistoryHead + 1 + i))

/-- `native_bands`. -/
def nativeBands (snap : AudioSnapshot K) : ℕ := min snap.freqBandCount kMaxBands

/-- `bands_hist_linear[b * kBHF + f]`. -/
def bandsHistLinear (snap : AudioSnapshot K) (b f : ℕ) : K :=
  if h : b < kMaxBands ∧ b < nativeBands snap then
    snap.freqBandsHistory
      (HistoryRing.slot kBandsHistoryFrames (snap.freqBandsHistoryHead + 1 + f)) ⟨b, h.1⟩
  else 0

end Histories

/-- `snap.direction8[i]`, as the single float that is written. -/
def bucket (snap : AudioSnapshot K) (i : ℕ) : List K := (List.ofFn snap.direction8)[i]?.toList

section Write

variable [Field K] [LinearOrder K] [FloorRing K]

/-- The floats written to a uniform `t` seconds after the start. -/
def write (snap : AudioSnapshot K) (t : K) : Uniform → List K
  | .volume => [snap.volume]
  | .volumeLeft => [snap.volumeLeft]
  | .volumeRight => [snap.volumeRight]
  | .audioPan => [snap.audioPan]
  | .audioFormat => [snap.audioFormat]
  | .freqBands => (List.ofFn snap.freqBands).take snap.freqBandCount
  | .numBands => [(snap.freqBandCount : K)]
  | .beat => [snap.beat]
  | .timeSeconds => [t]
  | .timePhase60Hz => [fmod (t * 60.0) 1]
  | .timePhase120Hz => [fmod (t * 120.0) 1]
  | .totalPhases60Hz => [t * 60.0]
  | .totalPhases120Hz => [t * 120.0]
  | .direction8 => List.ofFn snap.direction8
  | .front => bucket snap 0
  | .frontRight => bucket snap 1
  | .right => bucket snap 2
  | .backRight => bucket snap 3
  | .back => bucket snap 4
  | .backLeft => bucket snap 5
  | .left => bucket snap 6
  | .frontLeft => bucket snap 7
  | .volumeNorm => [snap.volumeNorm]
  | .volumeAtt => [snap.volumeAtt]
  | .bassNorm => [snap.bassNorm]
  | .midNorm => [snap.midNorm]
  | .trebNorm => [snap.trebNorm]
  | .bassAtt => [snap.bassAtt]
  | .midAtt => [snap.midAtt]
  | .trebAtt => [snap.trebAtt]
  | .freqBands16 => List.ofFn snap.freqBands16
  | .freqBands32 => List.ofFn snap.freqBands32
  | .spectralCentroid => [snap.spectralCentroid]
  | .loudness => [snap.loudness]
  | .beatPhase => [snap.beatPhase]
  | .tempoBpm => [snap.tempoBpm]
  | .tempoConfidence => [snap.tempoConfidence]
  | .phaseVolume => [snap.phaseVolume]
  | .phaseBass => [snap.phaseBass]
  | .phaseTreble => [snap.phaseTreble]
  | .volumeHistory => (List.range kVolumeHistoryLength).map (histLinear snap)
  | .freqBandsHistory =>
    (List.range (nativeBands snap * kBandsHistoryFrames)).map fun i =>
      bandsHistLinear snap (i / kBandsHistoryFrames) (i % kBandsHistoryFrames)

/-- What a uniform variable with the annotation `source` receives, if anything. -/
def publishUniforms (snap : AudioSnapshot K) (startTime now : TimePoint) (source : String) :
    Option (List K) :=
  (Uniform.ofSource source).map (write snap (seconds now startTime))

theorem publishUniforms_source (snap : AudioSnapshot K) (startTime now : TimePoint) (u : Uniform) :
    publishUniforms snap startTime now u.source = some (write snap (seconds now startTime) u) := by
  rw [publishUniforms, Uniform.ofSource_source, Option.map_some]

end Write

end Listeningway.Output
