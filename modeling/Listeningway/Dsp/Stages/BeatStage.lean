/- Listeningway/Dsp/Stages/BeatStage
   source: src/audio/dsp/stages/beat_stage.cpp
   digest: Onset detection, tempo and beat tracking, and the pulse the shaders see. -/

import Listeningway.Config.Settings
import Listeningway.Dsp.AnalysisFrame
import Listeningway.Dsp.Beat.BeatTracker
import Listeningway.Dsp.Beat.CombTempo

set_option autoImplicit false
set_option relaxedAutoImplicit false

namespace Listeningway.Dsp

open Listeningway.Config
open Listeningway.Lib.Clamp

variable {K : Type} [Field K] [LinearOrder K]

/-- `last_pulse_strength_` is only written, and so left out. -/
structure BeatStage (K : Type) where
  csd : OdfCsd K
  odfBuf : OdfBuffer K
  comb : CombTempo K
  tracker : BeatTracker K
  beatValue : K
  lastT : TimePoint
  framesSinceTempoUpdate : ℕ
  estHopRateHz : K
  confidenceAboveThreshFrames : ℕ
  autoLocked : Bool

namespace BeatStage

def kTempoUpdateHops : ℕ := 25

def kConfidenceLockThreshold : K := 0.05

def kLockedHoldUpdates : ℕ := 12

def initial : BeatStage K where
  csd := OdfCsd.initial
  odfBuf := OdfBuffer.initial
  comb := CombTempo.initial
  tracker := BeatTracker.initial
  beatValue := 0
  lastT := 0
  framesSinceTempoUpdate := 0
  estHopRateHz := 100.0
  confidenceAboveThreshFrames := 0
  autoLocked := false

def reads : List FieldId := [.magnitudes, .phases, .fluxTotal]

def writes : List FieldId :=
  [.beat, .beatPhase, .tempoBpm, .tempoConfidence, .tempoDetected, .beatPulseStrength,
    .beatAutoLocked]

def reset (st : BeatStage K) : BeatStage K := { initial with csd := st.csd.reset }

structure ModeParams (K : Type) where
  strength : K
  decayTauSec : K

def resolveMode (bc : BeatConfig K) : ModeParams K :=
  match bc.mode with
  | .auto => ⟨1, 0.15⟩
  | .profile =>
    match bc.profile with
    | .percussive => ⟨1, 0.12⟩
    | .melodic => ⟨1.2, 0.16⟩
    | .sustained => ⟨1.6, 0.23⟩
  | .custom => ⟨clamp bc.pulseStrength 0 3.0, 0.15⟩

/-- The smoothed rate of the calls. -/
def hopRate (st : BeatStage K) (now : TimePoint) : K :=
  let dt : K := seconds now st.lastT
  if st.lastT ≠ 0 ∧ 1e-4 < dt ∧ dt < 0.25 then
    0.95 * st.estHopRateHz + 0.05 * (1 / dt)
  else st.estHopRateHz

/-- The onset value of a frame; 0 without a spectrum. -/
def onset [Cmath K] (csd : OdfCsd K) (frame : AnalysisFrame K) : OdfCsd K × K :=
  match frame.magnitudes, frame.phases with
  | some magnitudes, some phases => csd.process magnitudes phases
  | _, _ => (csd, 0)

/-- The tempo estimate, recomputed every `kTempoUpdateHops` calls. -/
def updateTempo [FloorRing K] [Cmath K] [KissFft K] (comb : CombTempo K) (odfBuf : OdfBuffer K)
    (framesSince : ℕ) (rate : K) : CombTempo K × ℕ :=
  if kTempoUpdateHops ≤ framesSince then
    let snap := odfBuf.snapshotTo rate
    (if snap.1 then comb.estimate snap.2 else comb, 0)
  else (comb, framesSince)

def locked (confidence : K) : Bool := decide (kConfidenceLockThreshold ≤ confidence)

/-- The frames above the threshold and the lock that follows from them. -/
def updateLock (st : BeatStage K) (confidence : K) : ℕ × Bool :=
  if locked confidence then
    let frames := st.confidenceAboveThreshFrames + 1
    (frames, if kLockedHoldUpdates * kTempoUpdateHops ≤ frames then true else st.autoLocked)
  else (0, false)

/-- Beat period at the rate of the calls; 120 BPM before the first estimate. -/
def nativePeriod (canonical rate : K) : K :=
  if 0 < canonical then canonical * (rate / 86.0) else rate * 0.5

/-- Seconds the pulse decays over. -/
def pulseInterval (st : BeatStage K) (now : TimePoint) : K :=
  if st.lastT ≠ 0 then clamp (seconds now st.lastT) 0.001 0.25 else 1 / (kTempoUpdateHops : K)

variable [FloorRing K] [Cmath K] [KissFft K]

def process (st : BeatStage K) (frame : AnalysisFrame K) (cfg : Settings K) :
    BeatStage K × AnalysisFrame K :=
  let mode := resolveMode cfg.beat
  let rate := st.hopRate frame.capturedAt
  let odf := onset st.csd frame
  let odfBuf := st.odfBuf.push odf.2
  let tempo := updateTempo st.comb odfBuf (st.framesSinceTempoUpdate + 1) rate
  let comb := tempo.1
  let lock := st.updateLock comb.lastConfidence
  let tracked := st.tracker.process odf.2 (nativePeriod comb.lastBeatPeriodSamples rate)
  let struck := if tracked.2 then clamp mode.strength 0 1 else st.beatValue
  let beatValue :=
    struck * Cmath.exp (-st.pulseInterval frame.capturedAt / mode.decayTauSec)
  ({ csd := odf.1
     odfBuf := odfBuf
     comb := comb
     tracker := tracked.1
     beatValue := beatValue
     lastT := frame.capturedAt
     framesSinceTempoUpdate := tempo.2
     estHopRateHz := rate
     confidenceAboveThreshFrames := lock.1
     autoLocked := lock.2 },
    { frame with
      beat := some (clamp beatValue 0 1)
      beatPhase := some tracked.1.beatPhase
      tempoBpm := some (if 0 < comb.lastBeatPeriodSamples then
        60.0 * 86.0 / comb.lastBeatPeriodSamples else 0)
      tempoConfidence := some comb.lastConfidence
      tempoDetected := some (locked comb.lastConfidence)
      beatPulseStrength := some mode.strength
      beatAutoLocked := some (decide (cfg.beat.mode = .auto) && lock.2) })

end BeatStage

end Listeningway.Dsp
