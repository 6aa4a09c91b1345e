/- Listeningway/Dsp/Stages/LevelStages
   source: src/audio/dsp/stages/volume_stage.h; src/audio/dsp/stages/band_norm_stage.h;
     src/audio/dsp/stages/chronotensity_stage.h
   digest: Volume, the three-band gain control and the energy-driven phases. -/

import Listeningway.Config.Settings
import Listeningway.Dsp.AnalysisFrame
import Listeningway.Lib.Clamp
import Mathlib.Algebra.BigOperators.Group.Finset.Basic

set_option autoImplicit false
set_option relaxedAutoImplicit false

namespace Listeningway.Dsp

open Listeningway.Config
open Listeningway.Lib.Clamp

variable {K : Type} [Field K] [LinearOrder K]

/-! ### Automatic gain control, as VolumeStage and BandNormStage share it -/

namespace Agc

def meanAlpha (dt : K) (cfg : AgcConfig K) : K :=
  clamp (dt / max 0.1 cfg.windowSeconds) 0 1

def runningMean (alpha mean value : K) : K :=
  let start := if mean ≤ 0 then max value 1e-4 else mean
  (1 - alpha) * start + alpha * max value 1e-6

def norm (value mean : K) (cfg : AgcConfig K) : K :=
  min (value / max mean 1e-6) cfg.clampMax

/-- Attack when the target is above, release otherwise. -/
def smooth (dt : K) (cfg : AgcConfig K) (att target : K) : K :=
  let ms := if att < target then cfg.attAttackMs else cfg.attReleaseMs
  let alpha := clamp (dt / max 0.001 (ms * 0.001)) 0 1
  (1 - alpha) * att + alpha * target

end Agc

/-! ### VolumeStage -/

structure VolumeStage (K : Type) where
  runningMean : K
  att : K
  lastT : TimePoint

namespace VolumeStage

def initial : VolumeStage K where
  runningMean := 0
  att := 1
  lastT := 0

def reads : List FieldId := [.samples, .format]

def writes : List FieldId := [.volume, .volumeLeft, .volumeRight, .volumeNorm, .volumeAtt]

def reset (_ : VolumeStage K) : VolumeStage K := initial

/-- Outputs without data. -/
def silent (frame : AnalysisFrame K) : AnalysisFrame K :=
  { frame with
    volume := some 0
    volumeLeft := some 0
    volumeRight := some 0
    volumeNorm := some 1
    volumeAtt := some 1 }

/-- Mean absolute value; the divisor counts a trailing partial frame too. -/
def meanAbs (frame : AnalysisFrame K) : K :=
  (∑ i ∈ Finset.range frame.frames, ∑ c ∈ Finset.range frame.format.channels,
    |frame.sample i c|) / frame.samples.length

/-- RMS of one channel. -/
def channelRms [Cmath K] (frame : AnalysisFrame K) (c : ℕ) : K :=
  Cmath.sqrt ((∑ i ∈ Finset.range frame.frames, frame.sample i c * frame.sample i c) /
    frame.frames)

def process [Cmath K] (st : VolumeStage K) (frame : AnalysisFrame K) (cfg : Settings K) :
    VolumeStage K × AnalysisFrame K :=
  if frame.format.channels = 0 ∨ frame.samples = [] then (st, silent frame)
  else if frame.frames = 0 then (st, silent frame)
  else
    let volume := min 1 (meanAbs frame * cfg.frequency.amplifierVolume)
    let left := channelRms frame 0
    let right := if 2 ≤ frame.format.channels then channelRms frame 1 else left
    let dt : K := frameInterval (1 / 60.0) frame.capturedAt st.lastT
    let mean := Agc.runningMean (Agc.meanAlpha dt cfg.agc) st.runningMean volume
    let norm := Agc.norm volume mean cfg.agc
    let att := Agc.smooth dt cfg.agc st.att norm
    ({ runningMean := mean, att := att, lastT := frame.capturedAt },
      { frame with
        volume := some volume
        volumeLeft := some left
        volumeRight := some right
        volumeNorm := some norm
        volumeAtt := some att })

end VolumeStage

/-! ### BandNormStage -/

structure BandNormStage (K : Type) where
  bassMean : K
  midMean : K
  trebMean : K
  bassAtt : K
  midAtt : K
  trebAtt : K
  lastT : TimePoint

namespace BandNormStage

def initial : BandNormStage K where
  bassMean := 0
  midMean := 0
  trebMean := 0
  bassAtt := 1
  midAtt := 1
  trebAtt := 1
  lastT := 0

def reads : List FieldId := [.bands, .format]

def writes : List FieldId := [.bassNorm, .midNorm, .trebNorm, .bassAtt, .midAtt, .trebAtt]

def reset (_ : BandNormStage K) : BandNormStage K := initial

/-- Mean of `bands[lo..hi)`. -/
def energy (bands : List K) (lo hi : ℕ) : K :=
  (∑ i ∈ Finset.Ico lo hi, bands.getD i 0) / (max 1 (hi - lo) : ℕ)

def process (st : BandNormStage K) (frame : AnalysisFrame K) (cfg : Settings K) :
    BandNormStage K × AnalysisFrame K :=
  if frame.bands = [] then (st, frame)
  else
    let n := frame.bands.length
    let a := n / 3
    let b := n * 2 / 3
    let bassE := energy frame.bands 0 a
    let midE := energy frame.bands a b
    let trebE := energy frame.bands b n
    let dt : K := frameInterval (1 / 60.0) frame.capturedAt st.lastT
    let alpha := Agc.meanAlpha dt cfg.agc
    let bassMean := Agc.runningMean alpha st.bassMean bassE
    let midMean := Agc.runningMean alpha st.midMean midE
    let trebMean := Agc.runningMean alpha st.trebMean trebE
    let bn := Agc.norm bassE bassMean cfg.agc
    let mn := Agc.norm midE midMean cfg.agc
    let tn := Agc.norm trebE trebMean cfg.agc
    let bassAtt := Agc.smooth dt cfg.agc st.bassAtt bn
    let midAtt := Agc.smooth dt cfg.agc st.midAtt mn
    let trebAtt := Agc.smooth dt cfg.agc st.trebAtt tn
    ({ bassMean := bassMean, midMean := midMean, trebMean := trebMean,
       bassAtt := bassAtt, midAtt := midAtt, trebAtt := trebAtt, lastT := frame.capturedAt },
      { frame with
        bassNorm := some bn
        midNorm := some mn
        trebNorm := some tn
        bassAtt := some bassAtt
        midAtt := some midAtt
        trebAtt := some trebAtt })

end BandNormStage

/-! ### ChronotensityStage -/

structure ChronotensityStage (K : Type) where
  phaseV : K
  phaseB : K
  phaseT : K
  lastT : TimePoint

namespace ChronotensityStage

def initial : ChronotensityStage K where
  phaseV := 0
  phaseB := 0
  phaseT := 0
  lastT := 0

def reads : List FieldId := [.volumeNorm, .bassNorm, .trebNorm]

def writes : List FieldId := [.phaseVolume, .phaseBass, .phaseTreble]

def reset (_ : ChronotensityStage K) : ChronotensityStage K := initial

/-- How far a phase moves in `dt`. -/
def advance (dt norm k : K) : K := dt * max 0 (1 + k * (norm - 1))

/-- Wrap into `[0, 1)`. -/
def wrap [FloorRing K] (p : K) : K := p - floorPart p

def process [FloorRing K] (st : ChronotensityStage K) (frame : AnalysisFrame K)
    (cfg : Settings K) : ChronotensityStage K × AnalysisFrame K :=
  let dt : K := frameInterval (1 / 60.0) frame.capturedAt st.lastT
  let v := wrap (st.phaseV + advance dt (frame.volumeNorm.getD 1) cfg.chronotensity.gainVolume)
  let b := wrap (st.phaseB + advance dt (frame.bassNorm.getD 1) cfg.chronotensity.gainBass)
  let t := wrap (st.phaseT + advance dt (frame.trebNorm.getD 1) cfg.chronotensity.gainTreble)
  ({ phaseV := v, phaseB := b, phaseT := t, lastT := frame.capturedAt },
    { frame with phaseVolume := some v, phaseBass := some b, phaseTreble := some t })

end ChronotensityStage

end Listeningway.Dsp
