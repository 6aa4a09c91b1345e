/- Listeningway/Output/LinearPatterns
   source: src/output/openrgb_patterns/linear_patterns.cpp
   digest: The patterns of a strip, written LED by LED. -/

import Listeningway.Config.Settings
import Listeningway.Lib.SpanWrites
import Listeningway.Output.PatternCommon

set_option autoImplicit false
set_option relaxedAutoImplicit false

namespace Listeningway.Output.Patterns

open Listeningway.Config
open Listeningway.Dsp
open Listeningway.Lib.SpanWrites
open Listeningway.Snapshot

variable {K : Type} [Field K] [LinearOrder K] [FloorRing K]

namespace Linear

def kStaticAccentHue : K := 0.50

def kStaticAccentSat : K := 0.85

def kStaticAccentVal : K := 0.45

def sampleBand (snap : AudioSnapshot K) (t : K) : K :=
  if bandCount snap = 0 then 0 else bandAt snap (clamp01 t)

/-- `for (size_t i = 0; i < n; ++i) out[i] = …`; nothing for an empty span. -/
def forEachLed (out : List ColorRgb) (led : ℕ → ℕ → ColorRgb) : Option (List ColorRgb) :=
  let n := out.length
  (List.range n).foldlM (fun out i => store out i (led n i)) out

def renderOff (out : List ColorRgb) : List ColorRgb := fill out .black

def renderStatic (out : List ColorRgb) (brightness : K) : List ColorRgb :=
  let c := applyBrightness (hsvToRgb kStaticAccentHue kStaticAccentSat (kStaticAccentVal : K))
    brightness
  fill out c

def renderColorWash (snap : AudioSnapshot K) (out : List ColorRgb) (brightness : K) :
    List ColorRgb :=
  let vol := noiseGate (compressVolume snap.volumeAtt) 0.02 0.05
  let h := centroidToHue snap.spectralCentroid
  let c := applyBrightness (hsvToRgb h 1.0 (lerp 0.10 1.0 vol)) brightness
  fill out c

def renderSpectrumBar (snap : AudioSnapshot K) (out : List ColorRgb) (brightness : K) :
    Option (List ColorRgb) :=
  let vol := clamp01 (snap.volumeNorm * 0.5)
  let beat := clamp01 snap.beat
  forEachLed out fun n i =>
    let t := position i n
    let bandV := sampleBand snap t
    let c := spectrumRamp t
    let intensity := clamp01 (bandV * 1.5 + vol * 0.3 + beat * 0.4)
    applyBrightness (dim c intensity) brightness

/-- Volume of the meter, gated. -/
def vuLevel (snap : AudioSnapshot K) : K := noiseGate (clamp01 (snap.volumeNorm * 0.40)) 0.02 0.04

/-- The peak is held for a while and then falls. -/
def vuPeak (snap : AudioSnapshot K) (state : PatternState K) (dtSec : K) : PatternState K :=
  let v := vuLevel snap
  if state.vuPeakPos < v then { state with vuPeakPos := v, vuPeakDecaySeconds := 0.6 }
  else if 0 < state.vuPeakDecaySeconds then
    { state with vuPeakDecaySeconds := max 0 (state.vuPeakDecaySeconds - dtSec) }
  else { state with vuPeakPos := max v (state.vuPeakPos - dtSec * 0.6) }

/-- LED `i` of `n` of a meter at `v` that peaked at `peakPos`. -/
def vuColour (v peakPos : K) (n i : ℕ) : ColorRgb :=
  let fillN := v * (n : K)
  let peakN := peakPos * (n : K)
  let t : K := position i n
  let c : ColorRgb :=
    if (i : K) < fillN then
      let h : K := if t < 0.6 then 0.33 else if t < 0.85 then 0.16 else 0
      hsvToRgb h 1.0 1.0
    else ⟨0, 0, 0⟩
  let peakIdx := roundAway (peakN - 0.5)
  if (i : ℤ) = peakIdx ∧ 0 ≤ peakIdx ∧ peakIdx < (n : ℤ) then .white else c

def renderVuMeter (snap : AudioSnapshot K) (out : List ColorRgb) (state : PatternState K)
    (brightness dtSec : K) : Option (List ColorRgb × PatternState K) :=
  if out.length = 0 then some (out, state)
  else
    let v := vuLevel snap
    let state := vuPeak snap state dtSec
    let written := forEachLed out fun n i =>
      let c := vuColour v state.vuPeakPos n i
      applyBrightness c brightness
    written.map fun out => (out, state)

def renderChaseOrbit (snap : AudioSnapshot K) (out : List ColorRgb) (brightness : K) :
    Option (List ColorRgb) :=
  let phase := snap.phaseVolume - floorPart snap.phaseVolume
  let kTailLen : K := 4.0
  let kHeadHueAt0 : K := 0.55
  forEachLed out fun n i =>
    let headPos := phase * (n : K)
    -- forwards from the head, around the strip
    let d := headPos - (i : K)
    let d := if d < 0 then d + (n : K) else d
    if kTailLen < d then .black
    else
      let falloff := clamp01 (1 - d / kTailLen)
      let c := hsvToRgb kHeadHueAt0 0.85 falloff
      applyBrightness c brightness

def renderPulseFromCenter (snap : AudioSnapshot K) (out : List ColorRgb) (brightness : K) :
    Option (List ColorRgb) :=
  let pulse := clamp01 (snap.bassNorm * 0.5 + snap.beat * 0.6)
  forEachLed out fun n i =>
    let center := ((n - 1 : ℕ) : K) * 0.5
    let radius := pulse * (n : K) * 0.5
    let d := |(i : K) - center|
    let intensity := clamp01 (1 - d / max radius 0.5)
    let c := hsvToRgb 0.05 0.85 intensity
    applyBrightness c brightness

def renderStereoSplit (snap : AudioSnapshot K) (out : List ColorRgb) (brightness : K) :
    Option (List ColorRgb) :=
  let vL := noiseGate (clamp01 (snap.volumeLeft * 1.5)) 0.02 0.04
  let vR := noiseGate (clamp01 (snap.volumeRight * 1.5)) 0.02 0.04
  forEachLed out fun n i =>
    let half := n / 2
    let v := if i < half then vL else vR
    let h : K := if i < half then 0.50 else 0.85
    let c := hsvToRgb h 0.85 (lerp 0.05 1.0 v)
    applyBrightness c brightness

end Linear

/-- Failure is a write outside the span. -/
def renderLinear (pattern : LinearPattern) (snap : AudioSnapshot K) (out : List ColorRgb)
    (state : PatternState K) (brightness dtSec : K) : Option (List ColorRgb × PatternState K) :=
  let keep (written : Option (List ColorRgb)) := written.map fun out => (out, state)
  match pattern with
  | .spectrumBar => keep (Linear.renderSpectrumBar snap out brightness)
  | .vuMeter => Linear.renderVuMeter snap out state brightness dtSec
  | .chaseOrbit => keep (Linear.renderChaseOrbit snap out brightness)
  | .pulseFromCenter => keep (Linear.renderPulseFromCenter snap out brightness)
  | .stereoSplit => keep (Linear.renderStereoSplit snap out brightness)
  | .colorWash => keep (Linear.renderColorWash snap out brightness)
  | .static => keep (Linear.renderStatic out brightness)
  | .off => keep (Linear.renderOff out)

end Listeningway.Output.Patterns
