/- Listeningway/Output/SinglePatterns
   source: src/output/openrgb_patterns/single_patterns.cpp
   digest: One colour for a zone whose LEDs are treated alike. -/

import Listeningway.Config.Settings
import Listeningway.Output.PatternCommon

set_option autoImplicit false
set_option relaxedAutoImplicit false

namespace Listeningway.Output.Patterns

open Listeningway.Config
open Listeningway.Dsp
open Listeningway.Snapshot

variable {K : Type} [Field K] [LinearOrder K] [FloorRing K]

namespace Single

def kAccentHue : K := 0.50

def kAccentSat : K := 0.85

def kBeatFlashFromV : K := 0.20

def kBeatFlashToV : K := 1.00

end Single

open Single in
/-- The colour all LEDs of the zone get. -/
def renderSingle (pattern : SinglePattern) (snap : AudioSnapshot K) (state : PatternState K)
    (brightness : K) : ColorRgb × PatternState K :=
  let lit (c : ColorRgb) := (applyBrightness c brightness, { state with idleColour := c })
  match pattern with
  | .off => (.black, state)
  | .static => lit (hsvToRgb kAccentHue kAccentSat (0.60 : K))
  | .spectralHue =>
    let vol := noiseGate (compressVolume snap.volumeAtt) 0.02 0.05
    let h := centroidToHue snap.spectralCentroid
    lit (hsvToRgb h 1.0 (lerp 0.05 1.0 vol))
  | .chronotensityCycle =>
    let h := snap.phaseVolume - floorPart snap.phaseVolume
    let vol := compressVolume snap.volumeAtt
    lit (hsvToRgb h 0.85 (lerp 0.30 1.0 (clamp01 vol)))
  | .volumePulse =>
    let vol := noiseGate (compressVolume snap.volumeAtt) 0.02 0.05
    lit (hsvToRgb kAccentHue kAccentSat (lerp 0.05 1.0 vol))
  | .beatFlash =>
    let beat := clamp01 snap.beat
    let v := lerp kBeatFlashFromV kBeatFlashToV beat
    lit (hsvToRgb kAccentHue kAccentSat v)

end Listeningway.Output.Patterns
