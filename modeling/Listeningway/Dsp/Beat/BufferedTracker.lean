/- Listeningway/Dsp/Beat/BufferedTracker
   source: src/audio/dsp/beat/beat_tracker.h, beat_tracker.cpp
   digest: The beat tracker with the working buffers that it keeps from call to call. -/

import Listeningway.Dsp.Beat.BeatTracker
import Listeningway.Lib.SpanWrites

/-!
The buffers only grow, and neither a call nor a reset clears them. Indices that the source does
not check are checked here: failure is an access outside a buffer.
-/

set_option autoImplicit false
set_option relaxedAutoImplicit false

namespace Listeningway.Dsp

open Listeningway.Lib.Clamp
open Listeningway.Lib.SpanWrites

variable {K : Type} [Field K] [LinearOrder K]

structure BufferedTracker (K : Type) extends BeatTracker K where
  futureCs : List K
  w1Window : List K
  w2Window : List K

namespace BufferedTracker

open BeatTracker (kBufferSize kAlpha kTightness windowStart windowEnd windowSize beatWindow
  beatExpectation weightedMaxInWindow)

def initial : BufferedTracker K where
  toBeatTracker := .initial
  futureCs := List.replicate (kBufferSize + 256) 0
  w1Window := List.replicate kBufferSize 0
  w2Window := List.replicate 256 0

def reset (st : BufferedTracker K) : BufferedTracker K :=
  { st with toBeatTracker := st.toBeatTracker.reset }

/-- `resize` of a buffer with less than `size` entries. -/
def grown (buffer : List K) (size : ℕ) : List K :=
  if buffer.length < size then buffer ++ List.replicate (size - buffer.length) 0 else buffer

/-- Writes the first `size` entries. -/
def logGaussianWindow [Cmath K] (out : List K) (size : ℕ) (beatPeriod : K) : Option (List K) :=
  ((List.range size).foldlM (fun (acc : List K × K) i =>
    let ratio := -acc.2 / max beatPeriod 1e-6
    let a := if 0 < ratio then kTightness * Cmath.log ratio else 0
    (store acc.1 i (Cmath.exp (-(a * a) * 0.5))).map fun out => (out, acc.2 + 1))
    (out, -2.0 * beatPeriod)).map Prod.fst

variable [FloorRing K] [Cmath K]

/-- The score, oldest sample first, at the front of the buffer and zeros behind it. -/
def linearised (st : BufferedTracker K) (future : List K) : Option (List K) := do
  let future ← (List.range kBufferSize).foldlM (fun future i =>
    store future i
      (st.cumulativeScore ⟨(st.csHead + i) % kBufferSize, Nat.mod_lt _ (by decide)⟩)) future
  return future.take kBufferSize ++ List.replicate (future.length - kBufferSize) 0

/-- The score carried forward; the window slides with the index. -/
def synthesised (beatPeriod : K) (w1 future : List K) : Option (List K) :=
  ((List.range (beatWindow beatPeriod)).foldlM (fun (acc : List K × ℤ × ℤ) i =>
    (store acc.1 (kBufferSize + i) (weightedMaxInWindow acc.1 acc.2.1 acc.2.2 w1)).map
      fun future => (future, acc.2.1 + 1, acc.2.2 + 1))
    (future, windowStart beatPeriod, windowEnd beatPeriod)).map Prod.fst

/-- The argmax of `future * w2` over the next beat window. -/
def argmax (window : ℕ) (future w2 : List K) : Option (K × ℕ) :=
  (List.range window).foldlM (fun (best : K × ℕ) i => do
    let sample ← future[kBufferSize + i]?
    let expectation ← w2[i]?
    let v := sample * expectation
    return if best.1 < v then (v, i) else best) (0, 0)

def predictBeat (st : BufferedTracker K) : Option (BufferedTracker K) := do
  let window := beatWindow st.beatPeriod
  let size := windowSize st.beatPeriod
  let future ← linearised st (grown st.futureCs (kBufferSize + window))
  let w2 ← (List.range window).foldlM (fun w2 i =>
    store w2 i (beatExpectation st.beatPeriod i)) (grown st.w2Window window)
  let w1 ← logGaussianWindow (grown st.w1Window size) size st.beatPeriod
  let future ← synthesised st.beatPeriod (w1.take size) future
  let best ← argmax window future w2
  return { st with
    futureCs := future
    w1Window := w1
    w2Window := w2
    timeToNextBeat := (best.2 : ℤ)
    timeToNextPrediction := (best.2 : ℤ) + roundAway (st.beatPeriod * 0.5) }

/-- One ODF sample; the Boolean says that a beat fires. -/
def process (st : BufferedTracker K) (odfValue beatPeriodSamples : K) :
    Option (BufferedTracker K × Bool) := do
  let beatPeriod := clamp beatPeriodSamples 10.0 ((kBufferSize : K) * 0.5)
  let odf := |odfValue| + 1e-4
  let size := windowSize beatPeriod
  let w1 ← logGaussianWindow (grown st.w1Window size) size beatPeriod
  let weightedMax := weightedMaxInWindow st.linear (windowStart beatPeriod)
    (windowEnd beatPeriod) (w1.take size)
  let newCs := (1 - kAlpha) * odf + kAlpha * weightedMax
  let pushed : BufferedTracker K := { st with
    w1Window := w1
    cumulativeScore := Function.update st.cumulativeScore st.csHead newCs
    csHead := ⟨(st.csHead + 1) % kBufferSize, Nat.mod_lt _ (by decide)⟩
    beatPeriod := beatPeriod
    timeToNextBeat := st.timeToNextBeat - 1
    timeToNextPrediction := st.timeToNextPrediction - 1
    beatPhaseCounter := st.beatPhaseCounter + 1 }
  let predicted := if pushed.timeToNextPrediction ≤ 0 then predictBeat pushed else some pushed
  predicted.map fun st =>
    if st.timeToNextBeat ≤ 0 then
      ({ st with beatPhaseCounter := 0, timeToNextBeat := roundAway beatPeriod }, true)
    else (st, false)

end BufferedTracker

end Listeningway.Dsp
