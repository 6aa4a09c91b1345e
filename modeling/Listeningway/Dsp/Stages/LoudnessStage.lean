/- Listeningway/Dsp/Stages/LoudnessStage
   source: src/audio/dsp/stages/loudness_stage.h
   digest: K-weighted momentary loudness over a sliding window. -/

import Listeningway.Config.Settings
import Listeningway.Dsp.AnalysisFrame

set_option autoImplicit false
set_option relaxedAutoImplicit false

namespace Listeningway.Dsp

open Listeningway.Config

variable {K : Type} [Field K] [LinearOrder K]

namespace LoudnessStage

structure Biquad (K : Type) where
  b0 : K
  b1 : K
  b2 : K
  a1 : K
  a2 : K

/-- Delay lines of the two filters of one channel. -/
structure ChState (K : Type) where
  x1S1 : K
  x2S1 : K
  y1S1 : K
  y2S1 : K
  x1S2 : K
  x2S2 : K
  y1S2 : K
  y2S2 : K

def Biquad.zero : Biquad K := ⟨0, 0, 0, 0, 0⟩

def ChState.zero : ChState K := ⟨0, 0, 0, 0, 0, 0, 0, 0⟩

section Coefficients

variable [Cmath K]

def shelf (f0 q gainDb fs : K) : Biquad K :=
  let a := Cmath.pow 10.0 (gainDb / 40.0)
  let w0 := 2.0 * Cmath.pi * f0 / fs
  let cw := Cmath.cos w0
  let alpha := Cmath.sin w0 / (2.0 * q)
  let sqrtA := Cmath.sqrt a
  let a0 := (a + 1) + (a - 1) * cw + 2.0 * sqrtA * alpha
  { b0 := a * ((a + 1) - (a - 1) * cw + 2.0 * sqrtA * alpha) / a0
    b1 := 2.0 * a * ((a - 1) - (a + 1) * cw) / a0
    b2 := a * ((a + 1) - (a - 1) * cw - 2.0 * sqrtA * alpha) / a0
    a1 := -2.0 * ((a - 1) + (a + 1) * cw) / a0
    a2 := ((a + 1) + (a - 1) * cw - 2.0 * sqrtA * alpha) / a0 }

def highpass (f0 q fs : K) : Biquad K :=
  let w0 := 2.0 * Cmath.pi * f0 / fs
  let cw := Cmath.cos w0
  let alpha := Cmath.sin w0 / (2.0 * q)
  let a0 := 1 + alpha
  { b0 := (1 + cw) / 2.0 / a0
    b1 := -(1 + cw) / a0
    b2 := (1 + cw) / 2.0 / a0
    a1 := -2.0 * cw / a0
    a2 := (1 - alpha) / a0 }

end Coefficients

/-- One sample through the shelf and then the high-pass. -/
def filter (cs ch : Biquad K) (st : ChState K) (x : K) : ChState K × K :=
  let y1 := cs.b0 * x + cs.b1 * st.x1S1 + cs.b2 * st.x2S1 - cs.a1 * st.y1S1 - cs.a2 * st.y2S1
  let y2 := ch.b0 * y1 + ch.b1 * st.x1S2 + ch.b2 * st.x2S2 - ch.a1 * st.y1S2 - ch.a2 * st.y2S2
  ({ x1S1 := x
     x2S1 := st.x1S1
     y1S1 := y1
     y2S1 := st.y1S1
     x1S2 := y1
     x2S2 := st.x1S2
     -- the source writes `y2_s2` twice and leaves `y1_s2` as it was
     y1S2 := st.y1S2
     y2S2 := y2 }, y2)

end LoudnessStage

structure LoudnessStage (K : Type) where
  cs : LoudnessStage.Biquad K
  ch : LoudnessStage.Biquad K
  chState : List (LoudnessStage.ChState K)
  ring : List K
  ringPos : ℕ
  runningSum : K
  configuredFor : ℕ
  configuredWindow : K

namespace LoudnessStage

def initial : LoudnessStage K where
  cs := Biquad.zero
  ch := Biquad.zero
  chState := []
  ring := []
  ringPos := 0
  runningSum := 0
  configuredFor := 0
  configuredWindow := 0

def reads : List FieldId := [.samples, .format]

def writes : List FieldId := [.loudness]

/-- The coefficients stay. -/
def reset (st : LoudnessStage K) : LoudnessStage K :=
  { st with
    chState := []
    ring := []
    ringPos := 0
    runningSum := 0
    configuredFor := 0
    configuredWindow := 0 }

def windowSamples [FloorRing K] (sampleRate : ℕ) (windowMs : K) : ℕ :=
  max 32 (truncate ((sampleRate : K) * windowMs / 1000.0))

variable [Cmath K]

def configure [FloorRing K] (st : LoudnessStage K) (sampleRate channels : ℕ) (windowMs : K) :
    LoudnessStage K :=
  if sampleRate = st.configuredFor ∧ |windowMs - st.configuredWindow| < 0.5 ∧
      st.chState.length = channels then st
  else
    { cs := shelf 1681.9744 0.7071 3.99984 (sampleRate : K)
      ch := highpass 38.13547 0.5 (sampleRate : K)
      chState := List.replicate channels ChState.zero
      ring := List.replicate (windowSamples sampleRate windowMs) 0
      ringPos := 0
      runningSum := 0
      configuredFor := sampleRate
      configuredWindow := windowMs }

omit [Cmath K] [LinearOrder K] in
/-- All channels of frame `i`, and the sum of their squares. -/
def filterFrame (st : LoudnessStage K) (frame : AnalysisFrame K) (i : ℕ) :
    List (ChState K) × K :=
  let out := st.chState.mapIdx fun c s => filter st.cs st.ch s (frame.sample i c)
  (out.map Prod.fst, (out.map fun o => o.2 * o.2).sum)

omit [Cmath K] [LinearOrder K] in
/-- One pass of the loop over the frames. -/
def pushFrame (frame : AnalysisFrame K) (st : LoudnessStage K) (i : ℕ) : LoudnessStage K :=
  let out := filterFrame st frame i
  { st with
    chState := out.1
    runningSum := st.runningSum - st.ring.getD st.ringPos 0 + out.2
    ring := st.ring.set st.ringPos out.2
    ringPos := (st.ringPos + 1) % st.ring.length }

def process [FloorRing K] (st : LoudnessStage K) (frame : AnalysisFrame K) (cfg : Settings K) :
    LoudnessStage K × AnalysisFrame K :=
  let sr := frame.format.sampleRate
  let ch := frame.format.channels
  if sr = 0 ∨ ch = 0 ∨ frame.samples = [] then (st, { frame with loudness := some 0 })
  else
    let st := st.configure sr ch cfg.loudness.windowMs
    let st := (List.range frame.frames).foldl (pushFrame frame) st
    let meanSq := st.runningSum / ((max 1 (st.ring.length * ch) : ℕ) : K)
    (st, { frame with loudness := some (min 1 (Cmath.sqrt meanSq)) })

end LoudnessStage

end Listeningway.Dsp
