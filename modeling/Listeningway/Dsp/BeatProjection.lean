/- Listeningway/Dsp/BeatProjection
   source: src/audio/dsp/beat/beat_tracker.cpp
   digest: The cumulative score by age, the window of a period, and the score carried forward. -/

import Listeningway.Dsp.BeatSchedule
import Listeningway.Lib.FoldMax
import Listeningway.Lib.ForwardLoop
import Listeningway.Lib.HistoryRing

/-!
Each sample looks back at the ages between half a period and two periods. `windowMax` is what
it finds there; the projection appends it to the score and moves the window on.
-/

set_option autoImplicit false
set_option relaxedAutoImplicit false

namespace Listeningway.Dsp.BeatTracker

open Listeningway.Lib
open Listeningway.Lib.Clamp
open Listeningway.Lib.FoldMax
open Listeningway.Lib.ForwardLoop

/-! ### The score by age -/

instance : NeZero kBufferSize := ⟨by decide⟩

section Age

variable {K : Type} [Field K] [LinearOrder K] [FloorRing K] [Cmath K]

/-- The cumulative score as a ring of the last 512 samples. -/
def scoreRing (st : BeatTracker K) : HistoryRing kBufferSize K := ⟨st.cumulativeScore, st.csHead⟩

/-- The sample of the score pushed `j` calls before the last one. -/
def age (st : BeatTracker K) (j : ℕ) : K := st.scoreRing.ago j

omit [LinearOrder K] [FloorRing K] [Cmath K] in
theorem linear_getD (st : BeatTracker K) {i : ℕ} (inside : i < 512) :
    st.linear.getD i 0 = st.age (511 - i) := by
  have index : (st.csHead + i) % 512 = (st.csHead + 512 - 1 - (511 - i)) % 512 := by
    congr 1
    omega
  rw [linear, List.getD_eq_getElem _ _ (by simpa [kBufferSize] using inside), List.getElem_map,
    List.getElem_range]
  exact congrArg st.cumulativeScore (Fin.ext index)

omit [Field K] [LinearOrder K] [FloorRing K] [Cmath K] in
theorem length_linear (st : BeatTracker K) : st.linear.length = 512 := by
  rw [linear, List.length_map, List.length_range]
  rfl

omit [LinearOrder K] [FloorRing K] [Cmath K] in
theorem length_linear_append (st : BeatTracker K) (m : ℕ) :
    (st.linear ++ List.replicate m 0).length = 512 + m := by
  rw [List.length_append, length_linear, List.length_replicate]

omit [LinearOrder K] [FloorRing K] [Cmath K] in
theorem getD_linear_append (st : BeatTracker K) (future : List K) {j : ℕ} (past : j < 512) :
    (st.linear ++ future).getD j 0 = st.age (511 - j) := by
  have inside : j < st.linear.length := past.trans_eq st.length_linear.symm
  rw [List.getD_append _ _ _ _ inside, linear_getD st past]

theorem scoreRing_advanced (st : BeatTracker K) (odf period : K) :
    (st.advanced odf period).scoreRing =
      st.scoreRing.push (st.newCs (|odf| + 1e-4) (usedPeriod period)) := rfl

theorem scoreRing_process (st : BeatTracker K) (odf period : K) :
    (st.process odf period).1.scoreRing = (st.advanced odf period).scoreRing := by
  rw [process_eq]
  dsimp only
  split_ifs <;> rfl

theorem age_process_zero (st : BeatTracker K) (odf period : K) :
    (st.process odf period).1.age 0 = st.newCs (|odf| + 1e-4) (usedPeriod period) := by
  rw [age, scoreRing_process, scoreRing_advanced, HistoryRing.ago_push_zero]

theorem age_process_succ (st : BeatTracker K) (odf period : K) {j : ℕ} (inside : j + 1 < 512) :
    (st.process odf period).1.age (j + 1) = st.age j := by
  rw [age, scoreRing_process, scoreRing_advanced]
  exact HistoryRing.ago_push_succ _ _ inside

end Age

/-! ### The window of a period -/

section Window

variable {K : Type} [Field K] [LinearOrder K] [FloorRing K]

/-- A period that `process` may use. -/
abbrev Usable (period : K) : Prop := 10.0 ≤ period ∧ period ≤ 256.0

theorem windowStart_eq_sub (period : K) : windowStart period = 512 - roundAway (2.0 * period) :=
  rfl

theorem windowEnd_eq_sub (period : K) : windowEnd period = 512 - roundAway (0.5 * period) := rfl

section Bounds

variable [IsStrictOrderedRing K] {period : K}

omit [IsStrictOrderedRing K] in
theorem usedPeriod_of_usable (usable : Usable period) : usedPeriod period = period := by
  have longest : period ≤ (kBufferSize : K) * 0.5 := usable.2.trans_eq (by norm_num [kBufferSize])
  exact clamp_of_mem usable.1 longest

theorem usable_usedPeriod (period : K) : Usable (usedPeriod period) := by
  have clamped := usedPeriod_mem period
  refine ⟨clamped.1, clamped.2.trans_eq ?_⟩
  norm_num [kBufferSize]

theorem window_bounds (usable : Usable period) :
    0 ≤ windowStart period ∧ windowStart period ≤ windowEnd period ∧ windowEnd period < 512 := by
  obtain ⟨low, high⟩ := usable
  have long : roundAway (2.0 * period) ≤ 512 := by
    rw [roundAway_of_nonneg (by linarith), ← Int.lt_add_one_iff, Int.floor_lt]
    push_cast
    linarith
  have short : 1 ≤ roundAway (0.5 * period) := by
    rw [roundAway_of_nonneg (by linarith), Int.le_floor]
    push_cast
    linarith
  have order : roundAway (0.5 * period) ≤ roundAway (2.0 * period) :=
    roundAway_mono (by linarith) (by linarith)
  rw [windowStart_eq_sub, windowEnd_eq_sub]
  omega

theorem windowSize_eq_sub (usable : Usable period) :
    (windowSize period : ℤ) = windowEnd period - windowStart period + 1 := by
  have bounds := window_bounds usable
  unfold windowSize
  omega

end Bounds

variable [Cmath K]

omit [FloorRing K] in
theorem logGaussianWindow_eq_map (size : ℕ) (period : K) :
    logGaussianWindow size period = (List.range size).map fun i : ℕ =>
      let ratio := -(-2.0 * period + (i : K)) / max period 1e-6
      let a := if 0 < ratio then kTightness * Cmath.log ratio else 0
      Cmath.exp (-(a * a) * 0.5) := by
  simp only [logGaussianWindow, List.bind_eq_flatMap, List.pure_def, ← List.map_eq_flatMap,
    List.map_map]
  rfl

omit [FloorRing K] in
theorem length_logGaussianWindow (size : ℕ) (period : K) :
    (logGaussianWindow size period).length = size := by
  rw [logGaussianWindow_eq_map, List.length_map, List.length_range]

omit [FloorRing K] in
theorem logGaussianWindow_getD (period : K) {size w : ℕ} (inside : w < size) :
    (logGaussianWindow size period).getD w 0 =
      let ratio := -(-2.0 * period + (w : K)) / max period 1e-6
      let a := if 0 < ratio then kTightness * Cmath.log ratio else 0
      Cmath.exp (-(a * a) * 0.5) := by
  have listed : w < (logGaussianWindow size period).length :=
    inside.trans_eq (length_logGaussianWindow size period).symm
  rw [List.getD_eq_getElem _ _ listed]
  simp only [logGaussianWindow_eq_map, List.getElem_map, List.getElem_range]

/-- `W1` of the header, at a lag that need not be whole. -/
def w1 (period lag : K) : K :=
  let a := kTightness * Cmath.log (lag / period)
  Cmath.exp (-(a * a) * 0.5)

omit [FloorRing K] in
theorem weight_getD_eq_w1 [IsStrictOrderedRing K] {period : K} (usable : Usable period)
    {size w : ℕ} (inside : w < size) (ahead : (w : K) < 2.0 * period) :
    (logGaussianWindow size period).getD w 0 = w1 period (2.0 * period - w) := by
  have positive : 0 < period := by linarith [usable.1]
  have large : 1e-6 ≤ period := by linarith [usable.1]
  have ratio : -(-2.0 * period + (w : K)) / max period 1e-6 = (2.0 * period - w) / period := by
    rw [max_eq_left large, neg_mul, neg_add, neg_neg, ← sub_eq_add_neg]
  have lag : 0 < (2.0 * period - w) / period := div_pos (by linarith) positive
  rw [logGaussianWindow_getD _ inside]
  dsimp only
  rw [ratio, if_pos lag]
  rfl

/-- What the window finds that predicts the sample `i` places behind the newest. -/
def windowMax (period : K) (source : List K) (i : ℕ) : K :=
  weightedMaxInWindow source (windowStart period + i) (windowEnd period + i)
    (logGaussianWindow (windowSize period) period)

theorem newCs_eq (st : BeatTracker K) (odf period : K) :
    st.newCs odf period = (1 - kAlpha) * odf + kAlpha * windowMax period st.linear 0 := by
  rw [newCs, windowMax, Nat.cast_zero, add_zero, add_zero]

theorem windowMax_nonneg (period : K) (source : List K) (i : ℕ) : 0 ≤ windowMax period source i :=
  init_le_foldl_max _ _

theorem windowMax_le {period bound : K} {source : List K} {i : ℕ} (nonneg : 0 ≤ bound)
    (each : ∀ j w : ℕ, windowStart period + i + w = j → w < windowSize period →
      source.getD j 0 * (logGaussianWindow (windowSize period) period).getD w 0 ≤ bound) :
    windowMax period source i ≤ bound := by
  apply foldl_max_le nonneg
  rintro w - ⟨ahead, -, inside⟩
  rw [length_logGaussianWindow] at inside
  exact each _ w (Int.toNat_of_nonneg ahead).symm inside

theorem le_windowMax {period : K} {source : List K} {i j w : ℕ}
    (place : windowStart period + i + w = j) (inside : w < windowSize period)
    (last : (j : ℤ) ≤ windowEnd period + i) (filled : j < source.length) :
    source.getD j 0 * (logGaussianWindow (windowSize period) period).getD w 0 ≤
      windowMax period source i := by
  have listed : w ∈ List.range (windowEnd period + i - (windowStart period + i) + 1).toNat := by
    rw [List.mem_range]
    omega
  have passes : 0 ≤ windowStart period + i + (w : ℤ) ∧
      windowStart period + i + (w : ℤ) < source.length ∧
      w < (logGaussianWindow (windowSize period) period).length := by
    rw [length_logGaussianWindow]
    omega
  have term := le_foldl_max
    (p := fun w : ℕ => 0 ≤ windowStart period + i + (w : ℤ) ∧
      windowStart period + i + (w : ℤ) < source.length ∧
      w < (logGaussianWindow (windowSize period) period).length)
    (v := fun w : ℕ => source.getD (windowStart period + i + (w : ℤ)).toNat 0 *
      (logGaussianWindow (windowSize period) period).getD w 0) (0 : K) listed passes
  have index : (windowStart period + i + (w : ℤ)).toNat = j := by omega
  rw [index] at term
  exact term

end Window

/-! ### The score carried forward -/

section Projection

variable {K : Type} [Field K] [LinearOrder K] [FloorRing K] [Cmath K]

/-- The score with the first `i` samples of its projection. -/
def extended (st : BeatTracker K) (period : K) (i : ℕ) : List K :=
  (List.range i).foldl
    (fun future i => future.set (kBufferSize + i) (windowMax period future i))
    (st.linear ++ List.replicate
      (max (kBufferSize + 256) (kBufferSize + beatWindow period) - kBufferSize) 0)

theorem futureCs_eq_extended (st : BeatTracker K) :
    st.futureCs = st.extended st.beatPeriod (beatWindow st.beatPeriod) := rfl

variable (st : BeatTracker K) (period : K)

theorem extended_eq_forward (i : ℕ) :
    st.extended period i = forward (windowMax period) 512 (st.extended period 0) i := rfl

theorem length_extended (i : ℕ) :
    (st.extended period i).length = 512 + max 256 (beatWindow period) := by
  have size : kBufferSize = 512 := rfl
  rw [extended_eq_forward, length_forward, extended, List.range_zero, List.foldl_nil,
    length_linear_append]
  omega

theorem getD_extended_zero_past {j : ℕ} (past : j < 512) :
    (st.extended period 0).getD j 0 = st.age (511 - j) := by
  rw [extended, List.range_zero, List.foldl_nil, getD_linear_append st _ past]

theorem getD_extended_zero_ahead {j : ℕ} (ahead : 512 ≤ j) :
    (st.extended period 0).getD j 0 = 0 := by
  have behind : st.linear.length ≤ j := st.length_linear.trans_le ahead
  rw [extended, List.range_zero, List.foldl_nil, List.getD_append_right _ _ _ _ behind,
    List.getD_eq_getElem?_getD, List.getElem?_getD_replicate_default_eq]

theorem getD_extended_succ (i j : ℕ) :
    (st.extended period (i + 1)).getD j 0 =
      if 512 + i = j ∧ i < max 256 (beatWindow period) then
        windowMax period (st.extended period i) i
      else (st.extended period i).getD j 0 := by
  rw [extended_eq_forward, getD_forward_succ, ← extended_eq_forward, length_extended]
  refine if_congr ?_ rfl rfl
  omega

theorem getD_extended_past (i : ℕ) {j : ℕ} (past : j < 512) :
    (st.extended period i).getD j 0 = st.age (511 - j) := by
  rw [extended_eq_forward, getD_forward_past _ _ _ _ _ past, getD_extended_zero_past _ _ past]

theorem getD_extended_new {i j : ℕ} (known : j < i)
    (inside : j < max 256 (beatWindow period)) :
    (st.extended period i).getD (512 + j) 0 = windowMax period (st.extended period j) j := by
  have room : 512 + j < (st.extended period 0).length := by
    rw [length_extended]
    omega
  rw [extended_eq_forward, getD_forward_new _ _ _ _ known room, ← extended_eq_forward]

/-- What holds of zero and of the ages, and of every window over samples of which it holds, holds
of the projection. -/
theorem getD_extended_of {P : K → Prop} {first : ℕ} (blank : P 0)
    (past : ∀ j, first ≤ j → j < 512 → P (st.age (511 - j)))
    (window : ∀ source i, (∀ j, first ≤ j → P (source.getD j 0)) → P (windowMax period source i))
    (i : ℕ) {j : ℕ} (recent : first ≤ j) : P ((st.extended period i).getD j 0) := by
  induction i generalizing j with
  | zero =>
    rcases Nat.lt_or_ge j 512 with behind | ahead
    · rw [getD_extended_past st period 0 behind]
      exact past j recent behind
    · rw [getD_extended_zero_ahead st period ahead]
      exact blank
  | succ i ih =>
    rw [getD_extended_succ]
    split_ifs
    · exact window _ i fun j later => ih later
    · exact ih recent

end Projection

end Listeningway.Dsp.BeatTracker
