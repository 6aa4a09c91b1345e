/- Listeningway/Dsp/Stages/SpatialStages
   source: src/audio/dsp/stages/pan_stage.h; src/audio/dsp/stages/directional_stage.h
   digest: The stereo pan and the eight direction buckets. -/

import Listeningway.Config.Settings
import Listeningway.Dsp.AnalysisFrame
import Listeningway.Lib.Clamp
import Mathlib.Algebra.BigOperators.Fin
import Mathlib.Algebra.Order.BigOperators.Group.Finset
import Mathlib.Algebra.Order.Field.Basic
import Mathlib.Tactic.FinCases
import Mathlib.Tactic.NormNum

set_option autoImplicit false
set_option relaxedAutoImplicit false

namespace Listeningway.Dsp

open Listeningway.Config
open Listeningway.Lib.Clamp
open Listeningway.Source.SourceFormat

variable {K : Type} [Field K] [LinearOrder K]

/-! ### PanStage -/

structure PanStage (K : Type) where
  smoothedPan : K
  panInitialized : Bool

namespace PanStage

def initial : PanStage K := ⟨0, false⟩

def reads : List FieldId := [.samples, .format, .volumeLeft, .volumeRight]

def writes : List FieldId := [.audioPan]

def reset (_ : PanStage K) : PanStage K := initial

/-- Relative difference below which both sides count as balanced. -/
def deadzone : K := 0.02

def silence : K := 0.00001

def significant : K := 0.05

/-- Pan of the levels `l` and `r`, before the user's offset. -/
def measured (channels : ℕ) (l r : K) : K :=
  if 2 ≤ channels ∧ 0.0001 < l + r then
    if |r - l| / (l + r) < deadzone then 0
    else if l < silence ∧ significant < r then 1
    else if r < silence ∧ significant < l then -1
    else clamp ((r - l) / (l + r)) (-1) 1
  else 0

def process (st : PanStage K) (frame : AnalysisFrame K) (cfg : Settings K) :
    PanStage K × AnalysisFrame K :=
  let raw := measured frame.format.channels (frame.volumeLeft.getD 0) (frame.volumeRight.getD 0)
  let pan := clamp (raw + clamp cfg.audio.panOffset (-1) 1) (-1) 1
  let s := clamp cfg.audio.panSmoothing 0 1
  if 0 < s then
    let alpha := 1 / (1 + s * 10.0)
    let smoothed :=
      if st.panInitialized then (1 - alpha) * st.smoothedPan + alpha * pan else pan
    (⟨smoothed, true⟩, { frame with audioPan := some smoothed })
  else ({ st with panInitialized := false }, { frame with audioPan := some pan })

end PanStage

/-! ### DirectionalStage -/

/-- The stage has no `reset` of its own: the previous buckets outlive `Pipeline::reset`. -/
structure DirectionalStage (K : Type) where
  prevDir8 : Fin 8 → K

namespace DirectionalStage

def initial : DirectionalStage K := ⟨fun _ => 0⟩

def reads : List FieldId := [.samples, .format]

def writes : List FieldId := [.direction8]

/-- `IDspStage::reset`, not overridden. -/
def reset (st : DirectionalStage K) : DirectionalStage K := st

/-- Whether `process` holds the previous buckets. -/
def NoData (frame : AnalysisFrame K) : Prop :=
  frame.format.channels = 0 ∨ frame.samples = [] ∨ frame.frames = 0

instance (frame : AnalysisFrame K) : Decidable (NoData frame) :=
  inferInstanceAs (Decidable (_ ∨ _ ∨ _))

/-- Level of channel `c`; 0 for channels the format lacks. -/
def rms [Cmath K] (frame : AnalysisFrame K) (c : Fin 8) : K :=
  Cmath.sqrt ((if (c : ℕ) < frame.format.channels then
    ∑ i ∈ Finset.range frame.frames, frame.sample i c * frame.sample i c else 0) / frame.frames)

/-- Channel levels into the buckets F, FR, R, BR, B, BL, L, FL. -/
def route (format : Format) (rms : Fin 8 → K) : Fin 8 → K :=
  if format.channels = 1 then
    ![rms 0, 0, 0, 0, 0, 0, 0, 0]
  else if format.channels = 2 ∨ format.layout = .stereo then
    let common := min (rms 0) (rms 1)
    ![common, 0, max 0 (rms 1 - common), 0, 0, 0, max 0 (rms 0 - common), 0]
  else if format.channels = 6 ∨ format.layout = .surround51 then
    -- FL FR FC LFE SL SR, and the LFE is not routed
    ![rms 2, rms 1, rms 5, 0, 0, 0, rms 4, rms 0]
  else if format.channels = 8 then
    if format.layout = .surround71Side ∨ format.layout = .unknown then
      ![rms 2, rms 1, rms 5, rms 7, 0, rms 6, rms 4, rms 0]
    else
      ![rms 2, rms 1, rms 7, rms 5, 0, rms 4, rms 6, rms 0]
  else
    fun _ => (∑ c : Fin 8, if (c : ℕ) < format.channels then rms c else 0) / 8.0

def neighbours (src : Fin 8 → K) (i : Fin 8) : K := src (i + 7) + src (i + 1)

/-- Every bucket bleeds into its two neighbours on the ring. -/
def spread (amount : K) (src : Fin 8 → K) (i : Fin 8) : K :=
  if 0 < amount then src i + neighbours src i * amount else src i

/-- The buckets of a frame with data, before smoothing. -/
def measured [Cmath K] (frame : AnalysisFrame K) (cfg : Settings K) : Fin 8 → K :=
  spread (clamp cfg.frequency.spatialSpread 0 0.5) (route frame.format (rms frame))

def smoothing (cfg : Settings K) : K := clamp cfg.frequency.spatialSmoothing 0 0.95

/-- One bucket of the exponential moving average. -/
def smooth (alpha prev x : K) : K := if 0 < alpha then alpha * prev + (1 - alpha) * x else x

theorem spread_eq {amount : K} (h : 0 ≤ amount) (src : Fin 8 → K) (i : Fin 8) :
    spread amount src i = src i + amount * neighbours src i := by
  unfold spread
  split_ifs with some
  · rw [mul_comm amount]
  · rw [le_antisymm (not_lt.mp some) h, zero_mul, add_zero]

theorem smooth_eq {alpha : K} (h : 0 ≤ alpha) (prev x : K) :
    smooth alpha prev x = alpha * prev + (1 - alpha) * x := by
  unfold smooth
  split_ifs with some
  · rfl
  · rw [le_antisymm (not_lt.mp some) h, zero_mul, zero_add, sub_zero, one_mul]

def process [Cmath K] (st : DirectionalStage K) (frame : AnalysisFrame K) (cfg : Settings K) :
    DirectionalStage K × AnalysisFrame K :=
  if NoData frame then (st, { frame with direction8 := some st.prevDir8 })
  else
    let dir i := max 0 (smooth (smoothing cfg) (st.prevDir8 i) (measured frame cfg i))
    (⟨dir⟩, { frame with direction8 := some dir })

theorem process_congr [Cmath K] {f g : AnalysisFrame K} (samples : f.samples = g.samples)
    (format : f.format = g.format) (st : DirectionalStage K) (cfg : Settings K) :
    (st.process f cfg).1 = (st.process g cfg).1 ∧
      (st.process f cfg).2.direction8 = (st.process g cfg).2.direction8 := by
  have noData : NoData f ↔ NoData g := by
    simp only [NoData, AnalysisFrame.frames, samples, format]
  have levels : rms f = rms g := by
    funext c
    simp only [rms, AnalysisFrame.frames, AnalysisFrame.sample, samples, format]
  have same : measured f cfg = measured g cfg := by
    rw [measured, measured, format, levels]
  unfold process
  by_cases empty : NoData g
  · rw [if_pos (noData.mpr empty), if_pos empty]
    exact ⟨rfl, rfl⟩
  · rw [if_neg (mt noData.mp empty), if_neg empty, same]
    exact ⟨rfl, rfl⟩

theorem process_direction8 [Cmath K] (st : DirectionalStage K) (frame : AnalysisFrame K)
    (cfg : Settings K) :
    (st.process frame cfg).2.direction8 = some (st.process frame cfg).1.prevDir8 := by
  unfold process
  split_ifs <;> rfl

/-- Levels go to buckets, never out of them. -/
theorem route_nonneg [IsStrictOrderedRing K] (format : Format) {rms : Fin 8 → K}
    (h : ∀ c, 0 ≤ rms c) (i : Fin 8) : 0 ≤ route format rms i := by
  unfold route
  split_ifs
  · fin_cases i <;> simp [h]
  · fin_cases i <;> simp [h]
  · fin_cases i <;> simp [h]
  · fin_cases i <;> simp [h]
  · fin_cases i <;> simp [h]
  · refine div_nonneg (Finset.sum_nonneg fun c _ => ?_) (by norm_num)
    split_ifs
    · exact h c
    · exact le_rfl

end DirectionalStage

end Listeningway.Dsp
