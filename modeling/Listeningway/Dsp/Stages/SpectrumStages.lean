/- Listeningway/Dsp/Stages/SpectrumStages
   source: src/audio/dsp/stages/fft_stage.cpp; src/audio/dsp/stages/bands_stage.cpp;
     src/audio/dsp/stages/log_boost_stage.h; src/audio/dsp/stages/equalizer_stage.h;
     src/audio/dsp/stages/spectral_centroid_stage.h; src/audio/dsp/stages/flux_stage.h
   digest: From samples to magnitudes, bands, centroid and flux. -/

import Listeningway.Config.Settings
import Listeningway.Dsp.AnalysisFrame
import Listeningway.Lib.Clamp
import Listeningway.Snapshot.AudioSnapshot
import Mathlib.Algebra.BigOperators.Fin
import Mathlib.Data.List.OfFn

/-!
The complex scratch buffers of the FFT are written in full before they are read in
the same call, so they are local here.
-/

set_option autoImplicit false
set_option relaxedAutoImplicit false

namespace Listeningway.Dsp

open Listeningway.Config
open Listeningway.Snapshot
open Listeningway.Lib.Clamp

variable {K : Type} [Field K] [LinearOrder K]

/-! ### FftStage -/

/-- `allocated` says that `fft_cfg_` is not null. -/
structure FftStage (K : Type) where
  fftSize : ℕ
  allocated : Bool
  hann : List K
  magnitudes : List K
  phases : List K

namespace FftStage

def initial : FftStage K where
  fftSize := 0
  allocated := false
  hann := []
  magnitudes := []
  phases := []

def reads : List FieldId := [.samples, .format]

def writes : List FieldId := [.magnitudes, .phases]

/-- The plan and its window are kept. -/
def reset (st : FftStage K) : FftStage K :=
  { st with magnitudes := st.magnitudes.map fun _ => 0, phases := st.phases.map fun _ => 0 }

variable [Cmath K]

def hannWindow (size : ℕ) : List K :=
  (List.range size).map fun n =>
    0.5 * (1 - Cmath.cos (2.0 * Cmath.pi * (n : K) / ((size : K) - 1)))

variable [KissFft K]

def configure (st : FftStage K) (size : ℕ) : FftStage K :=
  if size = st.fftSize then st
  else if size = 0 then { st with fftSize := 0, allocated := false }
  else
    { fftSize := size
      allocated := KissFft.alloc K size
      hann := hannWindow size
      magnitudes := List.replicate (size / 2) 0
      phases := List.replicate (size / 2) 0 }

/-- Mono mix of frame `i`; without channels the samples count as mono. -/
def downmix (frame : AnalysisFrame K) (i : ℕ) : K :=
  let channels := max frame.format.channels 1
  (∑ c ∈ Finset.range channels, frame.samples.getD (i * channels + c) 0) / channels

/-- The windowed input, padded with zeros to the size of the transform. -/
def input (hann : List K) (frame : AnalysisFrame K) (i : ℕ) : K × K :=
  if i < frame.samples.length / max frame.format.channels 1 then
    (downmix frame i * hann.getD i 0, 0)
  else (0, 0)

/-- The output bins of the half spectrum. -/
def bin (hann : List K) (frame : AnalysisFrame K) (size : ℕ) (k : Fin (size / 2)) : K × K :=
  KissFft.fft size (fun i => input hann frame i) ⟨k, lt_of_lt_of_le k.2 (Nat.div_le_self _ _)⟩

def magnitude (z : K × K) : K := Cmath.sqrt (z.1 * z.1 + z.2 * z.2)

def process (st : FftStage K) (frame : AnalysisFrame K) (cfg : Settings K) :
    FftStage K × AnalysisFrame K :=
  let st := st.configure (max 64 cfg.frequency.fftSize).toNat
  if st.allocated then
    let out := bin st.hann frame st.fftSize
    let magnitudes := List.ofFn fun k => magnitude (out k)
    let phases := List.ofFn fun k => Cmath.atan2 (out k).2 (out k).1
    ({ st with magnitudes := magnitudes, phases := phases },
      { frame with magnitudes := some magnitudes, phases := some phases })
  else (st, frame)

omit [LinearOrder K] [Cmath K] in
theorem bin_congr {f g : AnalysisFrame K} (samples : f.samples = g.samples)
    (format : f.format = g.format) (hann : List K) (size : ℕ) :
    bin hann f size = bin hann g size := by
  funext k
  simp only [bin, input, downmix, samples, format]

omit [LinearOrder K] in
theorem process_magnitudes (st : FftStage K) (frame : AnalysisFrame K) (cfg : Settings K) :
    (st.process frame cfg).2.magnitudes =
      if (st.configure (max 64 cfg.frequency.fftSize).toNat).allocated then
        some (List.ofFn fun k => magnitude
          (bin (st.configure (max 64 cfg.frequency.fftSize).toNat).hann frame
            (st.configure (max 64 cfg.frequency.fftSize).toNat).fftSize k))
      else frame.magnitudes := by
  unfold process
  dsimp only
  split_ifs <;> rfl

omit [LinearOrder K] in
theorem configure_fftSize (st : FftStage K) {size : ℕ} (pos : size ≠ 0) :
    (st.configure size).fftSize = size := by
  unfold configure
  split_ifs with same
  · exact same.symm
  · rfl

end FftStage

/-! ### BandsStage -/

namespace BandsStage

/-- The cache key, the band edges in Hz and the bins of each band. -/
structure Cache (K : Type) where
  bandCount : ℕ
  fftHalf : ℕ
  scale : Option BandScale
  minFreq : K
  maxFreq : K
  sampleRate : K
  edges : List K
  bins : List (List ℕ)

def Cache.empty : Cache K where
  bandCount := 0
  fftHalf := 0
  scale := none
  minFreq := 0
  maxFreq := 0
  sampleRate := 0
  edges := []
  bins := []

def reads : List FieldId := [.magnitudes, .format]

def writes : List FieldId := [.rawBands, .bands16, .bands32]

/-- `std::numeric_limits<float>::max()`. -/
def floatMax : K := (340282346638528859811704183484516925440 : ℕ)

/-- The first band whose edges enclose `f`. -/
def bandOf (edges : List K) (bandCount : ℕ) (f : K) : Option ℕ :=
  if f < edges.headD 0 then none
  else (List.range bandCount).find? fun b => decide (edges.getD b 0 ≤ f ∧ f < edges.getD (b + 1) 0)

/-- The bin closest to `center`, the first one of several. -/
def closestBin (center binWidth : K) (fftHalf : ℕ) : ℕ :=
  ((List.range' 1 (fftHalf - 1)).foldl
    (fun (best : K × ℕ) (k : ℕ) =>
      let d := |(k : K) * binWidth - center|
      if d < best.1 then (d, k) else best)
    (floatMax, 1)).2

/-- Averages of consecutive runs of `src`, their borders cut by truncation. -/
def downsample [FloorRing K] (src : List K) (m : ℕ) (i : Fin m) : K :=
  if m = 0 ∨ src = [] then 0
  else
    let ratio : K := (src.length : K) / (m : K)
    let lo := truncate ((i : K) * ratio)
    let hi := min src.length (truncate (((i : ℕ) + 1 : K) * ratio))
    let n := hi - lo
    if 0 < n then (∑ k ∈ Finset.Ico lo hi, src.getD k 0) / (n : K) else 0

variable [Cmath K]

def melFromHz (hz : K) : K := 2595.0 * Cmath.log10 (1 + hz / 700.0)

def hzFromMel (mel : K) : K := 700.0 * (Cmath.pow 10.0 (mel / 2595.0) - 1)

/-- Edge `b` of `bandCount` bands between the two frequencies. -/
def edge (scale : BandScale) (minFreq maxFreq : K) (bandCount b : ℕ) : K :=
  match scale with
  | .linear => minFreq + (b : K) * ((maxFreq - minFreq) / (bandCount : K))
  | .log =>
    let lo := Cmath.log10 minFreq
    let hi := Cmath.log10 maxFreq
    Cmath.pow 10.0 (lo + (b : K) / (bandCount : K) * (hi - lo))
  | .mel =>
    let lo := melFromHz minFreq
    let hi := melFromHz maxFreq
    hzFromMel (lo + (b : K) / (bandCount : K) * (hi - lo))

def rebuildCache (bandCount fftHalf : ℕ) (sampleRate : K) (fc : FrequencyConfig K) : Cache K :=
  let minFreq := clamp fc.minFreq 10.0 (sampleRate * 0.5 - 1)
  let maxFreq := clamp fc.maxFreq (minFreq + 1) (sampleRate * 0.5)
  let edges := (List.range (bandCount + 1)).map (edge fc.bandScale minFreq maxFreq bandCount)
  let binWidth := sampleRate * 0.5 / (fftHalf : K)
  let inBand b := (List.range' 1 (fftHalf - 1)).filter fun k : ℕ =>
    decide (bandOf edges bandCount ((k : K) * binWidth) = some b)
  let bins := (List.range bandCount).map fun b =>
    -- a band narrower than a bin still gets the bin next to its center
    if inBand b = [] then
      [closestBin (Cmath.sqrt (edges.getD b 0 * edges.getD (b + 1) 0)) binWidth fftHalf]
    else inBand b
  { bandCount := bandCount
    fftHalf := fftHalf
    scale := some fc.bandScale
    minFreq := minFreq
    maxFreq := maxFreq
    sampleRate := sampleRate
    edges := edges
    bins := bins }

/-- The cache after the staleness test of `process`. -/
def refresh (cache : Cache K) (bandCount fftHalf : ℕ) (sampleRate : K) (fc : FrequencyConfig K) :
    Cache K :=
  if cache.bandCount ≠ bandCount ∨ cache.fftHalf ≠ fftHalf ∨ cache.scale ≠ some fc.bandScale ∨
      cache.minFreq ≠ fc.minFreq ∨ cache.maxFreq ≠ fc.maxFreq ∨ cache.sampleRate ≠ sampleRate then
    rebuildCache bandCount fftHalf sampleRate fc
  else cache

/-- Average magnitude over the bins of a band. -/
def average (mags : List K) (bins : List ℕ) : K :=
  if bins = [] then 0 else (bins.map fun k => mags.getD k 0).sum / (bins.length : K)

end BandsStage

structure BandsStage (K : Type) where
  cache : BandsStage.Cache K

namespace BandsStage

def initial : BandsStage K := ⟨Cache.empty⟩

def reset (_ : BandsStage K) : BandsStage K := initial

/-- `band_count` of the settings, kept within `1..kMaxBands`. -/
def bandCount (cfg : Settings K) : ℕ := (max 1 (min cfg.frequency.bandCount kMaxBands)).toNat

variable [Cmath K] [FloorRing K]

/-- `raw_bands` from the bins of the cache. -/
def rawBands (cache : Cache K) (mags : List K) (cfg : Settings K) : List K :=
  (List.range (bandCount cfg)).map fun b =>
    min 1 (average mags (cache.bins.getD b []) * cfg.frequency.bandNorm)

def process (st : BandsStage K) (frame : AnalysisFrame K) (cfg : Settings K) :
    BandsStage K × AnalysisFrame K :=
  match frame.magnitudes with
  | none => (st, { frame with bands16 := fun _ => 0, bands32 := fun _ => 0 })
  | some mags =>
    let sampleRate : K := frame.format.sampleRate
    if mags.length = 0 then (st, frame)
    else if sampleRate ≤ 0 then (st, frame)
    else
      let cache := refresh st.cache (bandCount cfg) mags.length sampleRate cfg.frequency
      let raw := rawBands cache mags cfg
      (⟨cache⟩,
        { frame with
          rawBands := raw
          bandCount := some (bandCount cfg)
          bands16 := downsample raw 16
          bands32 := downsample raw 32 })

end BandsStage

/-! ### LogBoostStage -/

namespace LogBoostStage

variable [Cmath K]

def reads : List FieldId := [.rawBands]

def writes : List FieldId := [.rawBands]

/-- The exponential gain of band `b`; 1 outside the log scale. -/
def gain (fc : FrequencyConfig K) (b : ℕ) : K :=
  if fc.bandScale ≠ .log ∨ fc.logStrength = 0 then 1
  else Cmath.exp (((b + 1 : ℕ) : K) * (fc.logStrength / 3.0))

def process (frame : AnalysisFrame K) (cfg : Settings K) : AnalysisFrame K :=
  if cfg.frequency.bandScale ≠ .log ∨ cfg.frequency.logStrength = 0 then frame
  else { frame with rawBands := frame.rawBands.mapIdx fun b v => v * gain cfg.frequency b }

/-- Without boost the gain is 1. -/
theorem process_rawBands (frame : AnalysisFrame K) (cfg : Settings K) :
    (process frame cfg).rawBands = frame.rawBands.mapIdx fun b v => v * gain cfg.frequency b := by
  unfold process
  split_ifs with plain
  · have one : ∀ b, gain cfg.frequency b = 1 := fun b => if_pos plain
    simp only [one, mul_one]
    exact (List.ext_getElem (by simp) (by simp)).symm
  · simp only [gain, if_neg plain]

end LogBoostStage

/-! ### EqualizerStage -/

namespace EqualizerStage

variable [Cmath K]

def reads : List FieldId := [.rawBands]

def writes : List FieldId := [.bands]

def centers : Fin 5 → K := ![0, 0.25, 0.5, 0.75, 1]

/-- Gaussian weight of knob `i` at band `b` of `n`. -/
def weight (fc : FrequencyConfig K) (n b : ℕ) (i : Fin 5) : K :=
  let width := max 0.001 fc.equalizerWidth
  let pos : K := if 1 < n then (b : K) / ((n - 1 : ℕ) : K) else 0
  let d := pos - centers i
  Cmath.exp (-(d * d) / (2.0 * width * width))

/-- The blend of the five knobs at band `b` of `n`. -/
def multiplier (fc : FrequencyConfig K) (n b : ℕ) : K :=
  let totalW := ∑ i, weight fc n b i
  if 0 < totalW then (∑ i, weight fc n b i * fc.equalizerBands i) / totalW else 1

def process (frame : AnalysisFrame K) (cfg : Settings K) : AnalysisFrame K :=
  { frame with
    bands := frame.rawBands.mapIdx fun b v =>
      v * multiplier cfg.frequency frame.rawBands.length b }

end EqualizerStage

/-! ### SpectralCentroidStage -/

namespace SpectralCentroidStage

def reads : List FieldId := [.magnitudes, .format]

def writes : List FieldId := [.spectralCentroid]

def process (frame : AnalysisFrame K) (_ : Settings K) : AnalysisFrame K :=
  match frame.magnitudes with
  | none => { frame with spectralCentroid := some 0 }
  | some mags =>
    if frame.format.sampleRate = 0 then { frame with spectralCentroid := some 0 }
    else
      let nyquist : K := (frame.format.sampleRate : K) * 0.5
      let binHz := nyquist / (mags.length : K)
      let weighted := ∑ k ∈ Finset.range mags.length, (k : K) * binHz * mags.getD k 0
      let total := ∑ k ∈ Finset.range mags.length, mags.getD k 0
      let centroidHz := if 1e-10 < total then weighted / total else 0
      { frame with spectralCentroid := some (clamp (centroidHz / nyquist) 0 1) }

end SpectralCentroidStage

/-! ### FluxStage -/

structure FluxStage (K : Type) where
  prevLog : List K

namespace FluxStage

def initial : FluxStage K := ⟨[]⟩

def reads : List FieldId := [.magnitudes, .format]

def writes : List FieldId := [.fluxTotal, .fluxLow, .fluxMid, .fluxHigh]

def reset (_ : FluxStage K) : FluxStage K := initial

def setFlux (frame : AnalysisFrame K) (total low mid high : K) : AnalysisFrame K :=
  { frame with
    fluxTotal := some total, fluxLow := some low, fluxMid := some mid, fluxHigh := some high }

variable [Cmath K]

def logMagnitude (m : K) : K := Cmath.log (max 1e-10 m)

def process (st : FluxStage K) (frame : AnalysisFrame K) (_ : Settings K) :
    FluxStage K × AnalysisFrame K :=
  match frame.magnitudes with
  | none => (st, setFlux frame 0 0 0 0)
  | some mags =>
    if frame.format.sampleRate = 0 then (st, setFlux frame 0 0 0 0)
    else if st.prevLog.length ≠ mags.length then
      (⟨List.replicate mags.length (Cmath.log 1e-10)⟩, setFlux frame 0 0 0 0)
    else
      let binHz : K := (frame.format.sampleRate : K) * 0.5 / (mags.length : K)
      let diff (k : ℕ) : K := max 0 (logMagnitude (mags.getD k 0) - st.prevLog.getD k 0)
      let inBand (p : K → Bool) : K :=
        ∑ k ∈ Finset.range mags.length, if p ((k : K) * binHz) then diff k else 0
      let norm : K := 1 / (mags.length : K)
      (⟨mags.map logMagnitude⟩,
        setFlux frame (inBand (fun _ => true) * norm) (inBand (fun f => decide (f ≤ 150.0)) * norm)
          (inBand (fun f => decide (150.0 < f ∧ f ≤ 2000.0)) * norm)
          (inBand (fun f => decide (2000.0 < f ∧ 6000.0 ≤ f)) * norm))

end FluxStage

end Listeningway.Dsp
