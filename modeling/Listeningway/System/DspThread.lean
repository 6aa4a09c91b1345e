/- Listeningway/System/DspThread
   source: src/audio/pipeline/audio_system.cpp
   digest: What dsp_thread_main publishes for a processed frame, and its history rings. -/

import Listeningway.Dsp.Pipeline
import Listeningway.Lib.HistoryRing
import Mathlib.Data.List.GetD

set_option autoImplicit false
set_option relaxedAutoImplicit false

namespace Listeningway.System.DspThread

open Listeningway.Dsp
open Listeningway.Lib
open Listeningway.Snapshot

variable {K : Type}

instance : NeZero kVolumeHistoryLength := ⟨by decide⟩

instance : NeZero kBandsHistoryFrames := ⟨by decide⟩

/-- `volume_history_` and `bands_history_` with their heads. -/
structure Histories (K : Type) where
  volume : HistoryRing kVolumeHistoryLength K
  bands : HistoryRing kBandsHistoryFrames (Fin kMaxBands → K)

section Project

variable [Zero K]

/-- The first `kMaxBands` entries, zeros behind them. -/
def cap (xs : List K) (i : Fin kMaxBands) : K := xs.getD i 0

/-- Post-EQ bands if present, else pre-EQ ones. -/
def srcBands (frame : AnalysisFrame K) : List K :=
  if frame.bands.isEmpty then frame.rawBands else frame.bands

/-- `AnalysisFrame` to `AudioSnapshot`; the histories follow in `record`. -/
def project [One K] [NatCast K] (frame : AnalysisFrame K) (profile : Profile K) :
    AudioSnapshot K :=
  { AudioSnapshot.zero K with
    capturedAt := frame.capturedAt
    frameIndex := frame.frameIndex
    audioFormat := (frame.format.channels : K)
    volume := frame.volume.getD 0
    volumeLeft := frame.volumeLeft.getD 0
    volumeRight := frame.volumeRight.getD 0
    volumeNorm := frame.volumeNorm.getD 1
    volumeAtt := frame.volumeAtt.getD 1
    freqBands := cap (srcBands frame)
    freqBandCount := min (srcBands frame).length kMaxBands
    freqBandsRaw := cap frame.rawBands
    freqBands16 := frame.bands16
    freqBands32 := frame.bands32
    bassNorm := frame.bassNorm.getD 1
    midNorm := frame.midNorm.getD 1
    trebNorm := frame.trebNorm.getD 1
    bassAtt := frame.bassAtt.getD 1
    midAtt := frame.midAtt.getD 1
    trebAtt := frame.trebAtt.getD 1
    spectralCentroid := frame.spectralCentroid.getD 0
    loudness := frame.loudness.getD 0
    beat := frame.beat.getD 0
    beatPhase := frame.beatPhase.getD 0
    tempoBpm := frame.tempoBpm.getD 0
    tempoConfidence := frame.tempoConfidence.getD 0
    tempoDetected := frame.tempoDetected.getD false
    beatPulseStrength := frame.beatPulseStrength.getD 1
    beatAutoLocked := frame.beatAutoLocked.getD false
    phaseVolume := frame.phaseVolume.getD 0
    phaseBass := frame.phaseBass.getD 0
    phaseTreble := frame.phaseTreble.getD 0
    audioPan := frame.audioPan.getD 0
    direction8 := frame.direction8.getD fun _ => 0
    stageTimings := profile.timings
    stageCount := min profile.count kMaxStages
    pipelineMicros := profile.totalMicros }

/-- The published bands are the source bands, as long as these fit. -/
theorem cap_forall {P : K → Prop} {src : List K} (short : src.length ≤ kMaxBands) :
    (∀ i : Fin kMaxBands, (i : ℕ) < min src.length kMaxBands → P (cap src i)) ↔
      ∀ v ∈ src, P v := by
  rw [Nat.min_eq_left short]
  constructor
  · intro h v hv
    obtain ⟨b, hb, rfl⟩ := List.getElem_of_mem hv
    have shown := h ⟨b, Nat.lt_of_lt_of_le hb short⟩ hb
    rwa [cap, List.getD_eq_getElem _ _ hb] at shown
  · intro h i hi
    rw [cap, List.getD_eq_getElem _ _ hi]
    exact h _ (List.getElem_mem hi)

end Project

namespace Histories

def initial [Zero K] : Histories K := ⟨.filled 0, .filled fun _ => 0⟩

/-- Write a frame into both rings. -/
def push (h : Histories K) (snap : AudioSnapshot K) : Histories K :=
  ⟨h.volume.push snap.volume, h.bands.push snap.freqBands⟩

/-- Update the rings with a frame and copy them, with the advanced heads, into the
snapshot that is published. -/
def record (h : Histories K) (snap : AudioSnapshot K) : Histories K × AudioSnapshot K :=
  (h.push snap,
    { snap with
      volumeHistory := (h.push snap).volume.slots
      volumeHistoryHead := (h.push snap).volume.head
      freqBandsHistory := (h.push snap).bands.slots
      freqBandsHistoryHead := (h.push snap).bands.head })

/-- The rings after a run of frames. -/
def pushAll (h : Histories K) (snaps : List (AudioSnapshot K)) : Histories K :=
  snaps.foldl push h

theorem pushAll_snoc (h : Histories K) (snaps : List (AudioSnapshot K)) (snap : AudioSnapshot K) :
    h.pushAll (snaps ++ [snap]) = (h.pushAll snaps).push snap := by
  rw [pushAll, List.foldl_append]
  rfl

theorem pushAll_volume (h : Histories K) (snaps : List (AudioSnapshot K)) :
    (h.pushAll snaps).volume = h.volume.pushAll (snaps.map (·.volume)) := by
  induction snaps using List.reverseRecOn with
  | nil => rfl
  | append_singleton snaps snap ih =>
    rw [pushAll_snoc, List.map_append, List.map_singleton, HistoryRing.pushAll_snoc, ← ih]
    rfl

theorem pushAll_bands (h : Histories K) (snaps : List (AudioSnapshot K)) :
    (h.pushAll snaps).bands = h.bands.pushAll (snaps.map (·.freqBands)) := by
  induction snaps using List.reverseRecOn with
  | nil => rfl
  | append_singleton snaps snap ih =>
    rw [pushAll_snoc, List.map_append, List.map_singleton, HistoryRing.pushAll_snoc, ← ih]
    rfl

end Histories

end Listeningway.System.DspThread
