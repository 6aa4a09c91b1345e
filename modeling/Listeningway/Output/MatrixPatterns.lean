/- Listeningway/Output/MatrixPatterns
   source: src/output/openrgb_patterns/matrix_patterns.h, matrix_patterns.cpp
   digest: The patterns of a key grid, written through the lookup table of the zone. -/

import Listeningway.Config.Settings
import Listeningway.Lib.SpanWrites
import Listeningway.Output.PatternCommon

/-!
The rows of the waterfall are indexed without a check in the source, so they are here with
one: failure is an access outside the LEDs or outside the waterfall.
-/

set_option autoImplicit false
set_option relaxedAutoImplicit false

namespace Listeningway.Output.Patterns

open Listeningway.Config
open Listeningway.Dsp
open Listeningway.Lib.SpanWrites
open Listeningway.Snapshot

/-- Size of a zone and its lookup table in row-major order, empty if there is none. -/
structure MatrixGeometry where
  width : ℕ
  height : ℕ
  values : List ℕ

variable {K : Type} [Field K] [LinearOrder K] [FloorRing K]

namespace Matrix

def kStaticAccentHue : K := 0.50

def kStaticAccentSat : K := 0.85

def kStaticAccentVal : K := 0.40

/-- LED of a cell; `none` is the source's `SIZE_MAX`, for cells without one. -/
def cellToLed (geom : MatrixGeometry) (row col : ℕ) : Option ℕ :=
  if geom.height ≤ row ∨ geom.width ≤ col then none
  else if geom.values ≠ [] then
    match geom.values[row * geom.width + col]? with
    | none => none
    | some v => if v = 0xFFFFFFFF then none else some v
  else some (row * geom.width + col)

def setPixel (out : List ColorRgb) (led : ℕ) (c : ColorRgb) : Option (List ColorRgb) :=
  if out.length ≤ led then some out else store out led c

def clearAll (out : List ColorRgb) : List ColorRgb := fill out .black

def renderOff (out : List ColorRgb) : List ColorRgb := clearAll out

def renderStatic (out : List ColorRgb) (brightness : K) : List ColorRgb :=
  let c := applyBrightness (hsvToRgb kStaticAccentHue kStaticAccentSat (kStaticAccentVal : K))
    brightness
  fill out c

def renderColorWash (snap : AudioSnapshot K) (out : List ColorRgb) (brightness : K) :
    List ColorRgb :=
  let vol := noiseGate (compressVolume snap.volumeAtt) 0.02 0.05
  let c := applyBrightness (hsvToRgb (centroidToHue snap.spectralCentroid) 1.0 (lerp 0.10 1.0 vol))
    brightness
  fill out c

def renderBeatFlash (snap : AudioSnapshot K) (out : List ColorRgb) (brightness : K) :
    List ColorRgb :=
  let beat := clamp01 snap.beat
  let v := lerp 0.10 1.0 beat
  let c := applyBrightness (hsvToRgb kStaticAccentHue kStaticAccentSat v) brightness
  fill out c

/-- Column and row of the eight directions, clockwise from the front. -/
def anchors : Fin 8 → K × K :=
  ![(0.50, 0.00), (1.00, 0.00), (1.00, 0.50), (1.00, 1.00), (0.50, 1.00), (0.00, 1.00),
    (0.00, 0.50), (0.00, 0.00)]

/-- Sums of the three channels and of the weights, in this order. -/
def spatialSums [Cmath K] (snap : AudioSnapshot K) (nx ny : K) : K × K × K × K :=
  (List.finRange 8).foldl (fun acc i =>
    let dx := nx - (anchors i).1
    let dy := ny - (anchors i).2
    let dist := Cmath.sqrt (dx * dx + dy * dy)
    let w := Cmath.exp (-dist * 4.0)
    let v := clamp01 (snap.direction8 i)
    let h : K := ((i : ℕ) : K) / 8.0
    let c := hsvToRgb h 0.85 v
    (acc.1 + (c.r.toNat : K) * w, acc.2.1 + (c.g.toNat : K) * w,
      acc.2.2.1 + (c.b.toNat : K) * w, acc.2.2.2 + w)) (0, 0, 0, 0)

def renderSpatialMap [Cmath K] (snap : AudioSnapshot K) (geom : MatrixGeometry)
    (out : List ColorRgb) (brightness : K) : Option (List ColorRgb) :=
  if geom.width = 0 ∨ geom.height = 0 then some (clearAll out)
  else
    (List.range geom.height).foldlM (fun out row =>
      let ny : K := position row geom.height
      (List.range geom.width).foldlM (fun out col =>
        match cellToLed geom row col with
        | none => some out
        | some led =>
          let nx : K := position col geom.width
          let acc := spatialSums snap nx ny
          let wAcc := acc.2.2.2
          if 0 < wAcc then
            let c : ColorRgb := ⟨castByte (min 255.0 (acc.1 / wAcc)),
              castByte (min 255.0 (acc.2.1 / wAcc)), castByte (min 255.0 (acc.2.2.1 / wAcc))⟩
            setPixel out led (applyBrightness c brightness)
          else some out) out) (clearAll out)

def renderEqualizerColumns (snap : AudioSnapshot K) (geom : MatrixGeometry)
    (out : List ColorRgb) (brightness : K) : Option (List ColorRgb) :=
  if geom.width = 0 ∨ geom.height = 0 then some (clearAll out)
  else if bandCount snap = 0 then some (clearAll out)
  else
    (List.range geom.width).foldlM (fun out col =>
      let t : K := position col geom.width
      let band := clamp01 (bandAt snap t)
      let barHeight := band * (geom.height : K)
      let colColor := spectrumRamp t
      (List.range geom.height).foldlM (fun out row =>
        -- bars grow upwards from the last row
        let invRow := geom.height - 1 - row
        if barHeight ≤ (invRow : K) then some out
        else
          match cellToLed geom row col with
          | none => some out
          | some led =>
            let intensity := 1 - 0.4 * ((invRow : K) / max barHeight 1)
            setPixel out led (applyBrightness (dim colColor intensity) brightness)) out)
      (clearAll out)

def renderPerRegion (snap : AudioSnapshot K) (geom : MatrixGeometry)
    (out : List ColorRgb) (brightness : K) : Option (List ColorRgb) :=
  if geom.width = 0 ∨ geom.height = 0 then some (clearAll out)
  else
    let bass := clamp01 (snap.bassNorm * 0.5)
    let mid := clamp01 (snap.midNorm * 0.5)
    let treb := clamp01 (snap.trebNorm * 0.5)
    let beat := clamp01 snap.beat
    (List.range geom.height).foldlM (fun out row =>
      let tPos : K := position row geom.height
      let wTreb := max 0 (1 - 2.0 * tPos)
      let wBass := max 0 (2.0 * tPos - 1)
      let wMid := 1 - wTreb - wBass
      let intensity := clamp01 (treb * wTreb + mid * wMid + bass * wBass)
      let base := spectrumRamp (1 - tPos)
      let cellC := dim base intensity
      let cellC : ColorRgb :=
        if row + 1 = geom.height then
          let flash := hsvToRgb 0 0 beat
          ⟨UInt8.ofNat (min 255 (cellC.r.toNat + flash.r.toNat)),
            UInt8.ofNat (min 255 (cellC.g.toNat + flash.g.toNat)),
            UInt8.ofNat (min 255 (cellC.b.toNat + flash.b.toNat))⟩
        else cellC
      (List.range geom.width).foldlM (fun out col =>
        match cellToLed geom row col with
        | none => some out
        | some led => setPixel out led (applyBrightness cellC brightness)) out) out

/-- The buffer is made anew when its size is not that of the matrix. -/
def resized (geom : MatrixGeometry) (state : PatternState K) : PatternState K :=
  if state.waterfallRows.length ≠ geom.height ∨
      (∃ row ∈ state.waterfallRows.head?, row.length ≠ geom.width) then
    { state with
      waterfallRows := List.replicate geom.height (List.replicate geom.width 0)
      waterfallHead := 0 }
  else state

/-- Writes the current spectrum into the head row. -/
def sampleHeadRow (snap : AudioSnapshot K) (geom : MatrixGeometry) (state : PatternState K) :
    Option (PatternState K) := do
  let headRow ← state.waterfallRows[state.waterfallHead]?
  let headRow ← (List.range geom.width).foldlM (fun headRow col =>
    let t : K := position col geom.width
    store headRow col (if bandCount snap = 0 then 0 else bandAt snap t)) headRow
  let rows ← store state.waterfallRows state.waterfallHead headRow
  return { state with waterfallRows := rows }

/-- The head row on top, older rows below it. -/
def drawWaterfall (geom : MatrixGeometry) (out : List ColorRgb) (state : PatternState K)
    (brightness : K) : Option (List ColorRgb) :=
  let size := state.waterfallRows.length
  (List.range geom.height).foldlM (fun out row => do
    let src := (state.waterfallHead + size - row) % size
    let srcRow ← state.waterfallRows[src]?
    (List.range geom.width).foldlM (fun out col =>
      match cellToLed geom row col with
      | none => some out
      | some led => do
        let t : K := position col geom.width
        let sample ← srcRow[col]?
        let v := clamp01 (sample * 1.4)
        let c := dim (spectrumRamp t) v
        setPixel out led (applyBrightness c brightness)) out) out

def renderSpectrogramWaterfall (snap : AudioSnapshot K) (geom : MatrixGeometry)
    (out : List ColorRgb) (state : PatternState K) (brightness : K) :
    Option (List ColorRgb × PatternState K) :=
  if geom.width = 0 ∨ geom.height = 0 then some (clearAll out, state)
  else do
    let state ← sampleHeadRow snap geom (resized geom state)
    let out ← drawWaterfall geom out state brightness
    let head := (state.waterfallHead + 1) % state.waterfallRows.length
    return (out, { state with waterfallHead := head })

end Matrix

def renderMatrix [Cmath K] (pattern : MatrixPattern) (snap : AudioSnapshot K)
    (geom : MatrixGeometry) (out : List ColorRgb) (state : PatternState K) (brightness : K) :
    Option (List ColorRgb × PatternState K) :=
  let keep (written : Option (List ColorRgb)) := written.map fun out => (out, state)
  match pattern with
  | .spatialMap => keep (Matrix.renderSpatialMap snap geom out brightness)
  | .equalizerColumns => keep (Matrix.renderEqualizerColumns snap geom out brightness)
  | .perRegion => keep (Matrix.renderPerRegion snap geom out brightness)
  | .spectrogramWaterfall =>
    Matrix.renderSpectrogramWaterfall snap geom out state brightness
  | .beatFlash => keep (Matrix.renderBeatFlash snap out brightness)
  | .colorWash => keep (Matrix.renderColorWash snap out brightness)
  | .static => keep (Matrix.renderStatic out brightness)
  | .off => keep (Matrix.renderOff out)

end Listeningway.Output.Patterns
