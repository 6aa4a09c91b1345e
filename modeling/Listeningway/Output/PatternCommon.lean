/- Listeningway/Output/PatternCommon
   source: src/output/openrgb_patterns/pattern_common.h, pattern_common.cpp
   digest: Colours, the per-zone state and the primitives the LED patterns share. -/

import Listeningway.Dsp.Cmath
import Listeningway.Snapshot.AudioSnapshot

set_option autoImplicit false
set_option relaxedAutoImplicit false

namespace Listeningway.Output.Patterns

open Listeningway.Dsp
open Listeningway.Snapshot

structure ColorRgb where
  r : UInt8
  g : UInt8
  b : UInt8
  deriving DecidableEq, Repr

namespace ColorRgb

def black : ColorRgb := ⟨0, 0, 0⟩

/-- `ColorRgb{255, 255, 255}`. -/
def white : ColorRgb := ⟨255, 255, 255⟩

end ColorRgb

/-- Scratch state of a zone, kept across frames. -/
structure PatternState (K : Type) where
  vuPeakPos : K
  vuPeakDecaySeconds : K
  waterfallRows : List (List K)
  waterfallHead : ℕ
  idleColour : ColorRgb

/-- `PatternState{}`. -/
def PatternState.initial {K : Type} [Zero K] : PatternState K where
  vuPeakPos := 0
  vuPeakDecaySeconds := 0
  waterfallRows := []
  waterfallHead := 0
  idleColour := ⟨0, 0, 0⟩

variable {K : Type} [Field K] [LinearOrder K]

def clamp01 (x : K) : K := if x < 0 then 0 else if 1 < x then 1 else x

def lerp (a b t : K) : K := a + (b - a) * t

def kBrightnessSafetyCap : K := 0.95

/-- Fades in linearly over `window` above `floor`. -/
def noiseGate (level floor window : K) : K :=
  if level ≤ floor then 0
  else if floor + window ≤ level then level
  else
    let t := (level - floor) / window
    level * t

def centroidToHue (centroid : K) : K := lerp 0.66 0 (clamp01 centroid)

/-- `compress_volume`, which each of the three pattern files defines. -/
def compressVolume (v : K) : K := clamp01 (v * 0.5)

/-- Position of LED, row or column `i` of `n` in `[0, 1]`. -/
def position (i n : ℕ) : K := if n = 1 then 0.5 else (i : K) / ((n - 1 : ℕ) : K)

variable [FloorRing K]

/-- Conversion of a float to `uint8_t`, which cuts it. -/
def castByte (x : K) : UInt8 := UInt8.ofNat (truncate x)

def toByte (v01 : K) : UInt8 :=
  let scaled := v01 * 255.0
  if scaled ≤ 0 then 0
  else if 255.0 ≤ scaled then 255
  else castByte scaled

def hsvToRgb (h s v : K) : ColorRgb :=
  let h := h - floorPart h
  let s := clamp01 s
  let v := clamp01 v
  let h6 := h * 6.0
  let i := ⌊h6⌋ % 6
  let f := h6 - floorPart h6
  let p := v * (1 - s)
  let q := v * (1 - s * f)
  let t := v * (1 - s * (1 - f))
  let rgb : K × K × K := match i with
    | 0 => (v, t, p)
    | 1 => (q, v, p)
    | 2 => (p, v, t)
    | 3 => (p, q, v)
    | 4 => (t, p, v)
    | 5 => (v, p, q)
    | _ => (0, 0, 0)
  ⟨toByte rgb.1, toByte rgb.2.1, toByte rgb.2.2⟩

/-- Blue, cyan, green, yellow, red. -/
def stops : Fin 5 → K × K × K :=
  ![(0.10, 0.20, 1.00), (0.10, 1.00, 1.00), (0.10, 1.00, 0.30), (1.00, 1.00, 0.10),
    (1.00, 0.20, 0.10)]

def spectrumRamp (t : K) : ColorRgb :=
  let t := clamp01 t
  let scaled := t * 4.0
  let lo : Fin 5 := ⟨min 4 (truncate scaled), by omega⟩
  let hi : Fin 5 := ⟨min 4 (lo + 1), by omega⟩
  let frac := scaled - ((lo : ℕ) : K)
  ⟨toByte ((stops lo).1 * (1 - frac) + (stops hi).1 * frac),
    toByte ((stops lo).2.1 * (1 - frac) + (stops hi).2.1 * frac),
    toByte ((stops lo).2.2 * (1 - frac) + (stops hi).2.2 * frac)⟩

def dim (c : ColorRgb) (intensity : K) : ColorRgb :=
  let i := clamp01 intensity
  ⟨castByte ((c.r.toNat : K) * i), castByte ((c.g.toNat : K) * i), castByte ((c.b.toNat : K) * i)⟩

def applyBrightness (c : ColorRgb) (brightness : K) : ColorRgb :=
  dim c (min (clamp01 brightness) kBrightnessSafetyCap)

/-! ### Bands of the snapshot -/

/-- `snap.freq_bands[i]`. -/
def freqBand (snap : AudioSnapshot K) (i : ℕ) : K :=
  if h : i < kMaxBands then snap.freqBands ⟨i, h⟩ else 0

/-- `std::min<size_t>(snap.freq_band_count, kMaxBands)`. -/
def bandCount (snap : AudioSnapshot K) : ℕ := min snap.freqBandCount kMaxBands

/-- The bands interpolated at `t` of the range; the patterns call it with bands only. -/
def bandAt (snap : AudioSnapshot K) (t : K) : K :=
  let nb := bandCount snap
  let fpos := t * ((nb - 1 : ℕ) : K)
  let lo := truncate fpos
  let hi := min (lo + 1) (nb - 1)
  let frac := fpos - (lo : K)
  freqBand snap lo * (1 - frac) + freqBand snap hi * frac

end Listeningway.Output.Patterns
