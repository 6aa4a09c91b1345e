/- Listeningway/Dsp/Beat/CombTempo
   source: src/audio/dsp/beat/comb_tempo.cpp
   digest: Tempo from the balanced autocorrelation, a comb filterbank and a Viterbi step. -/

import Listeningway.Dsp.Beat.Odf
import Listeningway.Lib.Clamp
import Mathlib.Algebra.BigOperators.Fin

/-!
The thresholded ODF, the autocorrelation and the comb output are written in full by
every call of `estimate` before it reads them, so they are local here.
-/

set_option autoImplicit false
set_option relaxedAutoImplicit false

namespace Listeningway.Dsp

open Listeningway.Lib.Clamp

variable {K : Type} [Field K] [LinearOrder K]

namespace CombTempo

def kOdfLength : ℕ := 512

def kFftLength : ℕ := 1024

def kCombOutputSize : ℕ := 128

def kNumTempoStates : ℕ := 41

def kRayleighBeta : K := 43.0

def kTransitionSigma : K := 41.0 / 8.0

def kTempoToLagFactor : K := 60.0 * 86.0

def kAdaptPre : ℕ := 8

def kAdaptPost : ℕ := 7

def kLagMin : ℕ := 2

def kLagMax : ℕ := 127

def kNumHarmonics : ℕ := 4

end CombTempo

structure CombTempo (K : Type) where
  tempoObs : Fin CombTempo.kNumTempoStates → K
  prevDelta : Fin CombTempo.kNumTempoStates → K
  delta : Fin CombTempo.kNumTempoStates → K
  lastBpm : K
  lastConfidence : K
  lastBeatPeriodSamples : K

namespace CombTempo

def initial : CombTempo K where
  tempoObs _ := 0
  prevDelta _ := 1
  delta _ := 0
  lastBpm := 0
  lastConfidence := 0
  lastBeatPeriodSamples := 0

def reset (_ : CombTempo K) : CombTempo K := initial

/-- Magnitude at the vertex of the parabola through a peak and its neighbours. -/
def quadraticPeakMag {n : ℕ} (x : Fin n → K) (peak : Fin n) : K :=
  if h : 0 < (peak : ℕ) ∧ (peak : ℕ) + 1 < n then
    let ym1 := x ⟨peak - 1, lt_of_le_of_lt (Nat.sub_le _ _) peak.2⟩
    let y0 := x peak
    let yp1 := x ⟨peak + 1, h.2⟩
    let denom := ym1 - 2.0 * y0 + yp1
    if |denom| < 1e-12 then y0
    else
      let frac := (ym1 - yp1) / (2.0 * denom)
      y0 - 0.25 * frac * (ym1 - yp1)
  else x peak

/-- Mean of `x[lo..hi)` within the array; 0 for an empty window. -/
def windowMean {n : ℕ} (x : Fin n → K) (lo hi : ℕ) : K :=
  if min n hi ≤ lo then 0
  else (∑ k : Fin n, if lo ≤ (k : ℕ) ∧ (k : ℕ) < hi then x k else 0) / ((min n hi - lo : ℕ) : K)

/-- The mean subtracted at `i`; where the loops over head, middle and tail overlap, the
last one counts. -/
def threshold {n : ℕ} (x : Fin n → K) (i : ℕ) : K :=
  if n - kAdaptPost ≤ i then windowMean x (i - kAdaptPost) n
  else if i ≤ min n kAdaptPost then windowMean x 0 (min (i + kAdaptPre) n)
  else windowMean x (i - kAdaptPre) (i + kAdaptPost)

def adaptiveThreshold {n : ℕ} (x : Fin n → K) (i : Fin n) : K :=
  max 0 (x i - threshold x i)

/-- First index of the largest value. -/
def argmax (x : Fin kNumTempoStates → K) : Fin kNumTempoStates :=
  (List.finRange kNumTempoStates).foldl (fun best k => if x best < x k then k else best)
    ⟨0, by decide⟩

variable [Cmath K]

def rayleigh (n : ℕ) : K :=
  let betaSq : K := kRayleighBeta * kRayleighBeta
  (n : K) / betaSq * Cmath.exp (-((n : K) * (n : K)) / (2.0 * betaSq))

def transition (i j : Fin kNumTempoStates) : K :=
  let sigmaSq : K := kTransitionSigma * kTransitionSigma
  let dx : K := ((j : ℕ) : K) - ((i : ℕ) : K)
  1 / (kTransitionSigma * Cmath.sqrt (2.0 * Cmath.pi)) * Cmath.exp (-(dx * dx) / (2.0 * sigmaSq))

def balancedAcf [KissFft K] (odf : Fin kOdfLength → K) (i : Fin kOdfLength) : K :=
  let input (k : Fin kFftLength) : K × K :=
    (if h : (k : ℕ) < kOdfLength then odf ⟨k, h⟩ else 0, 0)
  let power (k : Fin kFftLength) : K × K :=
    let z := KissFft.fft kFftLength input k
    (z.1 * z.1 + z.2 * z.2, 0)
  let z := KissFft.fftInverse kFftLength power ⟨i, lt_trans i.2 (by decide)⟩
  Cmath.sqrt (z.1 * z.1 + z.2 * z.2) / ((kOdfLength - i : ℕ) : K) / (kFftLength : K)

/-- Output `lag - 1` sums the autocorrelation around the multiples of `lag`. -/
def combFilterbank (acf : Fin kOdfLength → K) (out : Fin kCombOutputSize) : K :=
  let lag := (out : ℕ) + 1
  if kLagMin ≤ lag ∧ lag ≤ kLagMax then
    ∑ a ∈ Finset.Icc 1 kNumHarmonics, ∑ s ∈ Finset.range (2 * a - 1),
      -- `s` stands for `b + a - 1`
      if h : a * lag + s - a < kOdfLength then
        acf ⟨a * lag + s - a, h⟩ * rayleigh out * (1 / ((2 * a - 1 : ℕ) : K))
      else 0
  else 0

/-- `lag1` and `lag2` of `estimate`, less one. -/
def lagIndex [FloorRing K] (bpm : K) : Fin kCombOutputSize :=
  ⟨(clamp (roundAway (kTempoToLagFactor / bpm)) 1 kCombOutputSize).toNat - 1, by
    have h : clamp (roundAway (kTempoToLagFactor / bpm)) 1 (kCombOutputSize : ℤ)
      ≤ kCombOutputSize := clamp_le _ (by decide)
    have : (0 : ℕ) < kCombOutputSize := by decide
    omega⟩

/-- Comb output at the lag of each tempo and at that of its half. -/
def observation [FloorRing K] (comb : Fin kCombOutputSize → K) (k : Fin kNumTempoStates) : K :=
  comb (lagIndex ((2 * k + 80 : ℕ) : K)) + comb (lagIndex ((4 * k + 160 : ℕ) : K))

/-- The Viterbi step before normalisation. -/
def viterbi (prevDelta obs : Fin kNumTempoStates → K) (j : Fin kNumTempoStates) : K :=
  max 0 ((List.finRange kNumTempoStates).foldl (fun best i =>
    let v := prevDelta i * transition i j
    if best < v then v else best) (-1)) * obs j

omit [Cmath K] in
/-- Scale to sum one; uniform when everything is zero. -/
def normalise (delta : Fin kNumTempoStates → K) (j : Fin kNumTempoStates) : K :=
  if 1e-12 < ∑ i, delta i then delta j * (1 / ∑ i, delta i) else 1 / (kNumTempoStates : K)

omit [Cmath K] in
def confidence (obs : Fin kNumTempoStates → K) (peak : Fin kNumTempoStates) : K :=
  if 1e-12 < ∑ i, obs i then clamp (quadraticPeakMag obs peak / ∑ i, obs i) 0 1 else 0

def estimate [FloorRing K] [KissFft K] (st : CombTempo K) (odf : Fin kOdfLength → K) :
    CombTempo K :=
  let comb := adaptiveThreshold (combFilterbank (balancedAcf (adaptiveThreshold odf)))
  let obs := observation comb
  let delta := normalise (viterbi st.prevDelta obs)
  let peak := argmax delta
  let bpm : K := ((2 * peak + 80 : ℕ) : K)
  { tempoObs := obs
    prevDelta := delta
    delta := delta
    lastBpm := bpm
    lastConfidence := confidence obs peak
    lastBeatPeriodSamples := kTempoToLagFactor / max bpm 1 }

end CombTempo

end Listeningway.Dsp
