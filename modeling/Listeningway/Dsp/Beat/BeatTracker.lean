/- Listeningway/Dsp/Beat/BeatTracker
   source: src/audio/dsp/beat/beat_tracker.cpp
   digest: The cumulative score, its forward projection and the time to the next beat. -/

import Listeningway.Dsp.Cmath
import Listeningway.Lib.Clamp
import Mathlib.Data.List.Defs

/-!
The windows and the projected score are written in full before they are read in the
same call, so they are local here.
-/

set_option autoImplicit false
set_option relaxedAutoImplicit false

namespace Listeningway.Dsp

open Listeningway.Lib.Clamp

variable {K : Type} [Field K] [LinearOrder K]

namespace BeatTracker

def kBufferSize : ℕ := 512

def kAlpha : K := 0.9

def kTightness : K := 5.0

end BeatTracker

structure BeatTracker (K : Type) where
  cumulativeScore : Fin BeatTracker.kBufferSize → K
  csHead : Fin BeatTracker.kBufferSize
  beatPeriod : K
  timeToNextBeat : ℤ
  timeToNextPrediction : ℤ
  beatPhaseCounter : ℤ

namespace BeatTracker

def initial : BeatTracker K where
  cumulativeScore _ := 0
  csHead := ⟨0, by decide⟩
  beatPeriod := 86.0
  timeToNextBeat := -1
  timeToNextPrediction := 10
  beatPhaseCounter := 0

def reset (_ : BeatTracker K) : BeatTracker K := initial

/-- The cumulative score, oldest sample first. -/
def linear (st : BeatTracker K) : List K :=
  (List.range kBufferSize).map fun i =>
    st.cumulativeScore ⟨(st.csHead + i) % kBufferSize, Nat.mod_lt _ (by decide)⟩

/-- Largest weighted sample of the window, at least 0; samples outside `source` are
skipped with their weight. -/
def weightedMaxInWindow (source : List K) (start stop : ℤ) (weights : List K) : K :=
  (List.range (stop - start + 1).toNat).foldl
    (fun (best : K) (w : ℕ) =>
      let i := start + (w : ℤ)
      if 0 ≤ i ∧ i < source.length ∧ w < weights.length then
        let v := source.getD i.toNat 0 * weights.getD w 0
        if best < v then v else best
      else best) 0

section Windows

variable [FloorRing K]

def windowStart (beatPeriod : K) : ℤ := (kBufferSize : ℤ) - roundAway (2.0 * beatPeriod)

def windowEnd (beatPeriod : K) : ℤ := (kBufferSize : ℤ) - roundAway (0.5 * beatPeriod)

def windowSize (beatPeriod : K) : ℕ :=
  (max 1 (windowEnd beatPeriod - windowStart beatPeriod + 1)).toNat

def beatWindow (beatPeriod : K) : ℕ := (max 2 (roundAway beatPeriod)).toNat

end Windows

variable [Cmath K]

def logGaussianWindow (size : ℕ) (beatPeriod : K) : List K :=
  (List.range size).map fun i =>
    let v := -2.0 * beatPeriod + (i : K)
    let ratio := -v / max beatPeriod 1e-6
    let a := if 0 < ratio then kTightness * Cmath.log ratio else 0
    Cmath.exp (-(a * a) * 0.5)

/-- Expectation of the next beat, centred half a period ahead. -/
def beatExpectation (beatPeriod : K) (i : ℕ) : K :=
  let halfBeat := beatPeriod * 0.5
  let dx := ((i + 1 : ℕ) : K) - halfBeat
  Cmath.exp (-(dx * dx) / (2.0 * halfBeat * halfBeat))

variable [FloorRing K]

/-- `future_cs`: the score carried forward by pure momentum. -/
def futureCs (st : BeatTracker K) : List K :=
  let w1 := logGaussianWindow (windowSize st.beatPeriod) st.beatPeriod
  let start := st.linear ++
    List.replicate
      (max (kBufferSize + 256) (kBufferSize + beatWindow st.beatPeriod) - kBufferSize) 0
  (List.range (beatWindow st.beatPeriod)).foldl
    (fun (future : List K) (i : ℕ) =>
      future.set (kBufferSize + i)
        (weightedMaxInWindow future (windowStart st.beatPeriod + i)
          (windowEnd st.beatPeriod + i) w1)) start

/-- Offset of the best expected beat. -/
def bestBeat (st : BeatTracker K) : ℕ :=
  let future := st.futureCs
  ((List.range (beatWindow st.beatPeriod)).foldl
    (fun (best : K × ℕ) (i : ℕ) =>
      let v := future.getD (kBufferSize + i) 0 * beatExpectation st.beatPeriod i
      if best.1 < v then (v, i) else best) (0, 0)).2

def predictBeat (st : BeatTracker K) : BeatTracker K :=
  { st with
    timeToNextBeat := (st.bestBeat : ℤ)
    timeToNextPrediction := (st.bestBeat : ℤ) + roundAway (st.beatPeriod * 0.5) }

/-- The new sample of the cumulative score. -/
def newCs (st : BeatTracker K) (odf beatPeriod : K) : K :=
  let weightedMax := weightedMaxInWindow st.linear (windowStart beatPeriod)
    (windowEnd beatPeriod) (logGaussianWindow (windowSize beatPeriod) beatPeriod)
  (1 - kAlpha) * odf + kAlpha * weightedMax

/-- One ODF sample; the Boolean says that a beat fires. -/
def process (st : BeatTracker K) (odfValue beatPeriodSamples : K) : BeatTracker K × Bool :=
  let beatPeriod := clamp beatPeriodSamples 10.0 ((kBufferSize : K) * 0.5)
  let odf := |odfValue| + 1e-4
  let pushed : BeatTracker K :=
    { cumulativeScore := Function.update st.cumulativeScore st.csHead (st.newCs odf beatPeriod)
      csHead := ⟨(st.csHead + 1) % kBufferSize, Nat.mod_lt _ (by decide)⟩
      beatPeriod := beatPeriod
      timeToNextBeat := st.timeToNextBeat - 1
      timeToNextPrediction := st.timeToNextPrediction - 1
      beatPhaseCounter := st.beatPhaseCounter + 1 }
  let st := if pushed.timeToNextPrediction ≤ 0 then pushed.predictBeat else pushed
  if st.timeToNextBeat ≤ 0 then
    ({ st with beatPhaseCounter := 0, timeToNextBeat := roundAway beatPeriod }, true)
  else (st, false)

omit [Cmath K] in
def beatPhase (st : BeatTracker K) : K :=
  if st.beatPeriod ≤ 0 then 0
  else
    let p := (st.beatPhaseCounter : K) / st.beatPeriod
    clamp (p - floorPart p) 0 0.999999

end BeatTracker

end Listeningway.Dsp
