/- Listeningway/Dsp/BeatRecurrence
   source: src/audio/dsp/beat/beat_tracker.h, beat_tracker.cpp
   digest: The window of a sample is the recurrence of the header over the samples before it. -/

import Listeningway.Dsp.BeatScore

/-!
The places of a window are the lags between half a period and two periods, both rounded. Every
lag leads back by five samples at least, so a window does not reach the sample it predicts.
-/

set_option autoImplicit false
set_option relaxedAutoImplicit false

namespace Listeningway.Dsp.BeatTracker

open Listeningway.Lib.FoldMax
open Listeningway.Lib.ForwardLoop

section Recurrence

variable {K : Type} [Field K] [LinearOrder K] [FloorRing K]

/-- The whole lags that a window looks back over. -/
def lags (period : K) : Set ℕ :=
  {k | roundAway (0.5 * period) ≤ k ∧ k ≤ roundAway (2.0 * period)}

variable [Cmath K]

/-- What the recurrence takes the maximum of at sample `n` of the sequence. The window begins at
two periods rounded, its weights at two periods. -/
def lookedBack (period : K) (sequence : ℕ → K) (n : ℕ) : Set K :=
  (fun k : ℕ => w1 period (k + (2.0 * period - roundAway (2.0 * period))) * sequence (n - k)) ''
    lags period

variable [IsStrictOrderedRing K] {period : K}

omit [Cmath K] in
theorem lag_bounds (usable : Usable period) {k : ℕ} (lag : k ∈ lags period) :
    5 ≤ k ∧ k ≤ 512 := by
  obtain ⟨shortest, longest⟩ := lag
  have bounds := window_bounds usable
  have half : 5 ≤ roundAway (0.5 * period) := by
    rw [roundAway_of_nonneg (by linarith [usable.1]), Int.le_floor]
    push_cast
    linarith [usable.1]
  rw [windowStart_eq_sub] at bounds
  omega

/-- The window that predicts the sample `i` places behind the newest. -/
structure InBounds (period : K) (i : ℕ) : Prop where
  behind : ∀ j : ℤ, windowStart period + i ≤ j → j ≤ windowEnd period + i → 0 ≤ j ∧ j < 512 + i
  weights : ((logGaussianWindow (windowSize period) period).length : ℤ) =
    windowEnd period + i - (windowStart period + i) + 1
  unskipped : ∀ source : List K, 512 + i ≤ source.length →
    ∀ w < (windowEnd period + i - (windowStart period + i) + 1).toNat,
      0 ≤ windowStart period + i + w ∧ windowStart period + i + w < source.length ∧
        w < (logGaussianWindow (windowSize period) period).length

theorem inBounds (usable : Usable period) (i : ℕ) : InBounds period i := by
  have bounds := window_bounds usable
  have size := windowSize_eq_sub usable
  constructor
  · intro j first last
    omega
  · rw [length_logGaussianWindow]
    omega
  · intro source room w counted
    rw [length_logGaussianWindow]
    omega

theorem term_eq (usable : Usable period) (source : List K) {i w k : ℕ} (lag : k ∈ lags period)
    (place : (w : ℤ) + k = roundAway (2.0 * period)) :
    source.getD (windowStart period + i + w).toNat 0 *
        (logGaussianWindow (windowSize period) period).getD w 0 =
      w1 period (k + (2.0 * period - roundAway (2.0 * period))) *
        source.getD (512 + i - k) 0 := by
  obtain ⟨short, long⟩ := lag_bounds usable lag
  have size := windowSize_eq_sub usable
  have start := windowStart_eq_sub period
  have stop := windowEnd_eq_sub period
  have index : (windowStart period + i + w).toNat = 512 + i - k := by omega
  have inside : w < windowSize period := by
    have shortest := lag.1
    omega
  have sum : (w : K) + k = (roundAway (2.0 * period) : ℤ) := by exact_mod_cast place
  have rounded : ((roundAway (2.0 * period) : ℤ) : K) ≤ 2.0 * period + 0.5 := by
    rw [roundAway_of_nonneg (by linarith [usable.1])]
    exact Int.floor_le _
  have far : (5 : K) ≤ k := by exact_mod_cast short
  have ahead : (w : K) < 2.0 * period := by linarith
  rw [index, weight_getD_eq_w1 usable inside ahead, mul_comm]
  congr 2
  linarith

theorem isGreatest_windowMax (usable : Usable period) {source : List K} {i : ℕ}
    (room : 512 + i ≤ source.length) :
    IsGreatest (insert 0 (lookedBack period (fun j => source.getD j 0) (512 + i)))
      (windowMax period source i) := by
  have start := windowStart_eq_sub period
  have stop := windowEnd_eq_sub period
  have bounds := window_bounds usable
  have greatest := isGreatest_foldl_max
    (p := fun w : ℕ => 0 ≤ windowStart period + i + (w : ℤ) ∧
      windowStart period + i + (w : ℤ) < source.length ∧
      w < (logGaussianWindow (windowSize period) period).length)
    (v := fun w : ℕ => source.getD (windowStart period + i + (w : ℤ)).toNat 0 *
      (logGaussianWindow (windowSize period) period).getD w 0)
    (List.range (windowEnd period + i - (windowStart period + i) + 1).toNat) (0 : K)
  convert greatest using 2
  · ext x
    constructor
    · rintro ⟨k, lag, rfl⟩
      obtain ⟨shortest, longest⟩ := lag
      have counted : (roundAway (2.0 * period) - k).toNat <
          (windowEnd period + i - (windowStart period + i) + 1).toNat := by omega
      refine ⟨_, List.mem_range.mpr counted, (inBounds usable i).unskipped source room _ counted,
        term_eq usable source ⟨shortest, longest⟩ ?_⟩
      omega
    · rintro ⟨w, listed, -, rfl⟩
      have counted := List.mem_range.mp listed
      have lag : (roundAway (2.0 * period) - w).toNat ∈ lags period := by
        constructor <;> omega
      refine ⟨_, lag, (term_eq usable source lag ?_).symm⟩
      omega
  · rfl

theorem lookedBack_congr (usable : Usable period) {sequence sequence' : ℕ → K} {n : ℕ}
    (some : 0 < n) (same : ∀ j < n, sequence j = sequence' j) :
    lookedBack period sequence n = lookedBack period sequence' n := by
  refine Set.image_congr fun k lag => ?_
  have behind := (lag_bounds usable lag).1
  rw [same (n - k) (by omega)]

theorem looksBack_windowMax (usable : Usable period) : LooksBack (windowMax period) 512 0 := by
  intro xs ys i room room' same
  have greatest := isGreatest_windowMax usable room
  rw [lookedBack_congr usable (by omega) same] at greatest
  exact greatest.unique (isGreatest_windowMax usable room')

end Recurrence

/-! ### Scores that are not negative -/

section Nonneg

variable {period : ℝ}

theorem lags_nonempty (usable : Usable period) : (lags period).Nonempty := by
  have bounds := window_bounds usable
  have start := windowStart_eq_sub period
  have stop := windowEnd_eq_sub period
  refine ⟨(roundAway (2.0 * period)).toNat, ?_, ?_⟩ <;> omega

/-- Over a sequence that is not negative the floor of the windows is not needed. -/
theorem isGreatest_lookedBack (usable : Usable period) {sequence : ℕ → ℝ} {n : ℕ} {x : ℝ}
    (some : 0 < n) (nonneg : ∀ j < n, 0 ≤ sequence j)
    (greatest : IsGreatest (insert 0 (lookedBack period sequence n)) x) :
    IsGreatest (lookedBack period sequence n) x := by
  refine isGreatest_of_floor greatest ((lags_nonempty usable).image _) ?_
  rintro _ ⟨k, lag, rfl⟩
  have behind := (lag_bounds usable lag).1
  have weight : 0 ≤ w1 period (k + (2.0 * period - roundAway (2.0 * period))) :=
    (Real.exp_pos _).le
  exact mul_nonneg weight (nonneg _ (by omega))

theorem linear_nonneg {st : BeatTracker ℝ} (nonneg : ∀ slot, 0 ≤ st.cumulativeScore slot) {j : ℕ}
    (past : j < 512) : 0 ≤ st.linear.getD j 0 := by
  rw [linear_getD st past]
  exact nonneg _

end Nonneg

end Listeningway.Dsp.BeatTracker
