/- Listeningway/Dsp/PhaseRuns
   source: src/audio/dsp/stages/chronotensity_stage.h
   digest: The phases of a run in closed form, whatever frames the time is cut into. -/

import Listeningway.Dsp.Stages.LevelStages
import Listeningway.Lib.Spans
import Mathlib.Algebra.Order.Floor.Ring
import Mathlib.Data.Rat.Floor
import Mathlib.Tactic.IntervalCases

set_option autoImplicit false
set_option relaxedAutoImplicit false

namespace Listeningway.Dsp.ChronotensityStage

open Listeningway.Config
open Listeningway.Lib.Spans (sum_spans_eq)

variable {K : Type} [Field K] [LinearOrder K]

/-! ### The three phases as one -/

/-- The norms that drive a phase. -/
inductive Drive where
  | volume
  | bass
  | treble

def phase (st : ChronotensityStage K) : Drive → K
  | .volume => st.phaseV
  | .bass => st.phaseB
  | .treble => st.phaseT

def norm (frame : AnalysisFrame K) : Drive → K
  | .volume => frame.volumeNorm.getD 1
  | .bass => frame.bassNorm.getD 1
  | .treble => frame.trebNorm.getD 1

def gain (cfg : Settings K) : Drive → K
  | .volume => cfg.chronotensity.gainVolume
  | .bass => cfg.chronotensity.gainBass
  | .treble => cfg.chronotensity.gainTreble

/-- Revolutions per second. -/
def rate (frame : AnalysisFrame K) (cfg : Settings K) (d : Drive) : K :=
  max 0 (1 + gain cfg d * (norm frame d - 1))

omit [LinearOrder K] in
theorem phase_initial (d : Drive) : (initial : ChronotensityStage K).phase d = 0 := by
  cases d <;> rfl

variable [FloorRing K]

theorem phase_process (st : ChronotensityStage K) (frame : AnalysisFrame K) (cfg : Settings K)
    (d : Drive) :
    (st.process frame cfg).1.phase d =
      Int.fract (st.phase d +
        frameInterval (1 / 60.0) frame.capturedAt st.lastT * rate frame cfg d) := by
  cases d <;> rfl

/-! ### Runs -/

/-- The stage before frame `n`. A reset is a new construction. -/
def before (frames : ℕ → AnalysisFrame K) (cfg : ℕ → Settings K) : ℕ → ChronotensityStage K
  | 0 => initial
  | n + 1 => ((before frames cfg n).process (frames n) (cfg n)).1

/-- The frame intervals of a run. A stamp at the epoch of the clock counts as none. -/
def interval (frames : ℕ → AnalysisFrame K) : ℕ → K
  | 0 => 1 / 60.0
  | i + 1 => frameInterval (1 / 60.0) (frames (i + 1)).capturedAt (frames i).capturedAt

def elapsed (frames : ℕ → AnalysisFrame K) (n : ℕ) : K :=
  ∑ i ∈ Finset.range n, interval frames i

variable (frames : ℕ → AnalysisFrame K) (cfg : ℕ → Settings K)

theorem frameInterval_before (n : ℕ) :
    frameInterval (1 / 60.0) (frames n).capturedAt (before frames cfg n).lastT =
      interval frames n := by
  cases n with
  | zero => exact if_pos rfl
  | succ n => rfl

variable [IsStrictOrderedRing K]

theorem fract_fract_add (x y : K) : Int.fract (Int.fract x + y) = Int.fract (x + y) := by
  rw [← Int.fract_add_intCast (Int.fract x + y) ⌊x⌋, add_right_comm, Int.fract_add_floor]

theorem phase_before (d : Drive) (n : ℕ) :
    (before frames cfg n).phase d =
      Int.fract (∑ i ∈ Finset.range n, interval frames i * rate (frames i) (cfg i) d) := by
  induction n with
  | zero => rw [before, phase_initial, Finset.sum_range_zero, Int.fract_zero]
  | succ n ih =>
    rw [before, phase_process, frameInterval_before, ih, Finset.sum_range_succ, fract_fract_add]

/-- Where frame `i` of one run and frame `j` of another share a moment, their rates agree. -/
def Agree (frames frames' : ℕ → AnalysisFrame K) (cfg cfg' : ℕ → Settings K) (n n' : ℕ)
    (d : Drive) : Prop :=
  ∀ i < n, ∀ j < n', ∀ x, elapsed frames i < x → x ≤ elapsed frames (i + 1) →
    elapsed frames' j < x → x ≤ elapsed frames' (j + 1) →
      rate (frames i) (cfg i) d = rate (frames' j) (cfg' j) d

/-- A phase is the fraction of its revolutions, and so the same for two runs that cut the time
into different frames. -/
theorem phases_without_drift (d : Drive) :
    (∀ n, (before frames cfg n).phase d =
      Int.fract (∑ i ∈ Finset.range n,
        interval frames i * max 0 (1 + gain (cfg i) d * (norm (frames i) d - 1)))) ∧
    ∀ (frames' : ℕ → AnalysisFrame K) (cfg' : ℕ → Settings K) (n n' : ℕ),
      (∀ i < n, 0 ≤ interval frames i) → (∀ j < n', 0 ≤ interval frames' j) →
      elapsed frames n = elapsed frames' n' → Agree frames frames' cfg cfg' n n' d →
        (before frames cfg n).phase d = (before frames' cfg' n').phase d := by
  refine ⟨phase_before frames cfg d, fun frames' cfg' n n' steps steps' meet agree => ?_⟩
  have spans (frames : ℕ → AnalysisFrame K) (i : ℕ) :
      elapsed frames (i + 1) - elapsed frames i = interval frames i := by
    rw [elapsed, elapsed, Finset.sum_range_succ, add_sub_cancel_left]
  have forward (frames : ℕ → AnalysisFrame K) (i : ℕ) (step : 0 ≤ interval frames i) :
      elapsed frames i ≤ elapsed frames (i + 1) := by
    rw [← spans] at step
    exact sub_nonneg.mp step
  have total := sum_spans_eq (p := fun i => rate (frames i) (cfg i) d)
    (q := fun j => rate (frames' j) (cfg' j) d) (fun i hi => forward frames i (steps i hi))
    (fun j hj => forward frames' j (steps' j hj)) rfl meet agree
  simp only [spans] at total
  rw [phase_before, phase_before, total]

/-- A frame every `step` ticks from the first second on, at average energy. -/
def steadyFrames (step : ℤ) (i : ℕ) : AnalysisFrame ℚ :=
  AnalysisFrame.ofChunk [] Source.SourceFormat.Format.empty (1000000000 + i * step) 0

/-- One second in one frame or in two. -/
theorem split_second_agrees :
    (before (steadyFrames 1000000000) (fun _ => Settings.defaults ℚ) 2).phase .volume =
      (before (steadyFrames 500000000) (fun _ => Settings.defaults ℚ) 3).phase .volume := by
  have whole (i : ℕ) (hi : i < 2) : 0 ≤ interval (steadyFrames 1000000000) i := by
    interval_cases i <;> norm_num [interval, frameInterval, seconds, steadyFrames,
      AnalysisFrame.ofChunk]
  have halves (i : ℕ) (hi : i < 3) : 0 ≤ interval (steadyFrames 500000000) i := by
    interval_cases i <;> norm_num [interval, frameInterval, seconds, steadyFrames,
      AnalysisFrame.ofChunk]
  have meet : elapsed (steadyFrames 1000000000) 2 = elapsed (steadyFrames 500000000) 3 := by
    norm_num [elapsed, Finset.sum_range_succ, interval, frameInterval, seconds, steadyFrames,
      AnalysisFrame.ofChunk]
  have average (step : ℤ) (i : ℕ) : rate (steadyFrames step i) (Settings.defaults ℚ) .volume =
      max 0 (1 + 0.5 * (1 - 1)) := rfl
  exact (phases_without_drift _ _ .volume).2 _ _ 2 3 whole halves meet
    fun _ _ _ _ _ _ _ _ _ => (average _ _).trans (average _ _).symm

end Listeningway.Dsp.ChronotensityStage
