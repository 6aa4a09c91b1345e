/- Listeningway/Dsp/FlashRate
   source: src/audio/dsp/beat/beat_tracker.cpp; src/output/openrgb_patterns/single_patterns.cpp
   digest: How many beats a second holds, and a tempo at which silence gives four. -/

import Listeningway.Dsp.BeatProjection
import Mathlib.Analysis.SpecialFunctions.Log.Basic

set_option autoImplicit false
set_option relaxedAutoImplicit false

namespace Listeningway.Dsp.BeatTracker

open Listeningway.Lib
open Listeningway.Lib.Clamp
open Listeningway.Lib.FoldMax
open Listeningway.Lib.StreamRun

/-! ### At 10.5 samples a beat -/

/-- The weight of a sample `d` before the one it predicts. -/
noncomputable def pull (d : ℕ) : ℝ := Real.exp (-((5.0 * Real.log (d / 10.5)) ^ 2) * 0.5)

theorem weight_getD {w : ℕ} (inside : w < 17) :
    (logGaussianWindow 17 (10.5 : ℝ)).getD w 0 = pull (21 - w) := by
  have distance : ((21 - w : ℕ) : ℝ) = 21 - w := by
    rw [Nat.cast_sub (by omega)]
    norm_num
  have behind : (w : ℝ) ≤ 16 := by exact_mod_cast Nat.lt_succ_iff.mp inside
  have usable : Usable (10.5 : ℝ) := by constructor <;> norm_num
  have start : 2.0 * (10.5 : ℝ) = 21 := by norm_num
  have ahead : (w : ℝ) < 2.0 * 10.5 := by linarith
  rw [weight_getD_eq_w1 usable inside ahead, start, pull, distance, pow_two]
  rfl

theorem pull_pos (d : ℕ) : 0 < pull d := Real.exp_pos _

theorem pull_le_one (d : ℕ) : pull d ≤ 1 := by
  apply Real.exp_le_one_iff.mpr
  have square := sq_nonneg (5.0 * Real.log (d / 10.5))
  linarith

theorem pull_le (d : ℕ) (positive : 0 < d) : pull d ≤ pull 11 := by
  have near : 0 ≤ Real.log (11 / 10.5) := Real.log_nonneg (by norm_num)
  have far : Real.log (11 / 10.5) ≤ |Real.log (d / 10.5)| := by
    rcases Nat.lt_or_ge d 11 with below | above
    · have small : (d : ℝ) ≤ 10 := by exact_mod_cast Nat.lt_succ_iff.mp below
      have large : (0 : ℝ) < d := by exact_mod_cast positive
      rw [← abs_neg, ← Real.log_inv, inv_div]
      refine le_trans (Real.log_le_log (by norm_num) ?_) (le_abs_self _)
      rw [div_le_div_iff₀ (by norm_num) large]
      linarith
    · have large : (11 : ℝ) ≤ d := by exact_mod_cast above
      refine le_trans (Real.log_le_log (by norm_num) ?_) (le_abs_self _)
      exact div_le_div_of_nonneg_right large (by norm_num)
  have squares : Real.log (11 / 10.5) ^ 2 ≤ Real.log (d / 10.5) ^ 2 :=
    sq_le_sq' (by linarith [abs_nonneg (Real.log (d / 10.5))]) far |>.trans_eq (sq_abs _)
  apply Real.exp_le_exp.mpr
  push_cast
  rw [mul_pow, mul_pow]
  linarith

section Windows

theorem windowStart_eq : windowStart (10.5 : ℝ) = 491 := by
  have floor : ⌊(2.0 * 10.5 + 0.5 : ℝ)⌋ = 21 := by
    rw [Int.floor_eq_iff]
    norm_num
  rw [windowStart, roundAway_of_nonneg (by norm_num), floor]
  rfl

theorem windowEnd_eq : windowEnd (10.5 : ℝ) = 507 := by
  have floor : ⌊(0.5 * 10.5 + 0.5 : ℝ)⌋ = 5 := by
    rw [Int.floor_eq_iff]
    norm_num
  rw [windowEnd, roundAway_of_nonneg (by norm_num), floor]
  rfl

theorem windowSize_eq : windowSize (10.5 : ℝ) = 17 := by
  rw [windowSize, windowStart_eq, windowEnd_eq]
  rfl

theorem beatWindow_eq : beatWindow (10.5 : ℝ) = 11 := by
  have floor : ⌊(10.5 + 0.5 : ℝ)⌋ = 11 := by
    rw [Int.floor_eq_iff]
    norm_num
  rw [beatWindow, roundAway_of_nonneg (by norm_num), floor]
  rfl

theorem usedPeriod_eq : usedPeriod (10.5 : ℝ) = 10.5 :=
  usedPeriod_of_usable (by constructor <;> norm_num)

theorem halfPeriod_eq : halfPeriod (10.5 : ℝ) = 5 := by
  have floor : ⌊(10.5 * 0.5 + 0.5 : ℝ)⌋ = 5 := by
    rw [Int.floor_eq_iff]
    norm_num
  rw [halfPeriod, usedPeriod_eq, roundAway_of_nonneg (by norm_num), floor]

/-- The window that predicts the sample `i` places behind the newest. -/
noncomputable def strongest (source : List ℝ) (i : ℕ) : ℝ :=
  weightedMaxInWindow source (491 + i) (507 + i) (logGaussianWindow 17 10.5)

theorem strongest_eq (source : List ℝ) (i : ℕ) : strongest source i = windowMax 10.5 source i := by
  rw [windowMax, windowStart_eq, windowEnd_eq, windowSize_eq]
  rfl

theorem strongest_le {source : List ℝ} {i : ℕ} {c : ℝ} (nonneg : 0 ≤ c)
    (below : ∀ w < 17, source.getD (491 + i + w) 0 ≤ c) : strongest source i ≤ pull 11 * c := by
  rw [strongest_eq]
  apply windowMax_le (mul_nonneg (pull_pos 11).le nonneg)
  intro j w place inside
  rw [windowStart_eq] at place
  rw [windowSize_eq] at inside
  obtain rfl : j = 491 + i + w := by omega
  rw [windowSize_eq, weight_getD inside]
  calc source.getD (491 + i + w) 0 * pull (21 - w)
      ≤ c * pull (21 - w) := mul_le_mul_of_nonneg_right (below w inside) (pull_pos _).le
    _ ≤ c * pull 11 := mul_le_mul_of_nonneg_left (pull_le _ (by omega)) nonneg
    _ = pull 11 * c := mul_comm _ _

theorem pull_le_strongest {source : List ℝ} {i w : ℕ} (inside : w < 17)
    (filled : 491 + i + w < source.length) :
    pull (21 - w) * source.getD (491 + i + w) 0 ≤ strongest source i := by
  have place : windowStart (10.5 : ℝ) + i + w = (491 + i + w : ℕ) := by
    rw [windowStart_eq]
    omega
  have last : ((491 + i + w : ℕ) : ℤ) ≤ windowEnd (10.5 : ℝ) + i := by
    rw [windowEnd_eq]
    omega
  have width : w < windowSize (10.5 : ℝ) := by
    rw [windowSize_eq]
    exact inside
  have term := le_windowMax place width last filled
  rw [windowSize_eq, weight_getD inside] at term
  rw [strongest_eq, mul_comm]
  exact term

theorem le_strongest {source : List ℝ} {i : ℕ} (filled : 501 + i < source.length) :
    pull 11 * source.getD (501 + i) 0 ≤ strongest source i := by
  have index : 491 + i + 10 = 501 + i := by omega
  have term := @pull_le_strongest source i 10 (by decide) (by omega)
  rwa [index] at term

end Windows

/-! ### A level score -/

/-- The score with the first `i` samples of its projection. -/
noncomputable def projected (st : BeatTracker ℝ) (i : ℕ) : List ℝ :=
  (List.range i).foldl (fun future i => future.set (512 + i) (strongest future i))
    (st.linear ++ List.replicate 256 0)

theorem projected_eq (st : BeatTracker ℝ) (i : ℕ) : st.projected i = st.extended 10.5 i := by
  have room : max (kBufferSize + 256) (kBufferSize + beatWindow (10.5 : ℝ)) - kBufferSize =
      256 := by
    rw [beatWindow_eq]
    rfl
  have window : strongest = windowMax (10.5 : ℝ) := by
    ext source i
    exact strongest_eq source i
  rw [projected, window, extended, room]
  rfl

theorem futureCs_eq {st : BeatTracker ℝ} (period : st.beatPeriod = 10.5) :
    st.futureCs = st.projected 11 := by
  rw [futureCs_eq_extended, period, beatWindow_eq, projected_eq]

section Projection

variable (st : BeatTracker ℝ)

theorem length_projected (i : ℕ) : (st.projected i).length = 768 := by
  rw [projected_eq, length_extended, beatWindow_eq]
  rfl

theorem getD_projected_past (i : ℕ) {j : ℕ} (past : j < 512) :
    (st.projected i).getD j 0 = st.age (511 - j) := by
  rw [projected_eq, getD_extended_past _ _ _ past]

theorem getD_projected_new {i j : ℕ} (known : j < i) (inside : i ≤ 256) :
    (st.projected i).getD (512 + j) 0 = strongest (st.projected j) j := by
  rw [projected_eq, getD_extended_new _ _ known (by omega), strongest_eq, projected_eq]

variable {st}

theorem projected_le {c : ℝ} (nonneg : 0 ≤ c) (below : ∀ j < 21, st.age j ≤ c) (i : ℕ) {j : ℕ}
    (recent : 491 ≤ j) : (st.projected i).getD j 0 ≤ c := by
  rw [projected_eq]
  apply getD_extended_of (P := fun x => x ≤ c) st 10.5 nonneg _ _ i recent
  · intro j recent past
    exact below _ (by omega)
  · intro source i under
    rw [← strongest_eq]
    have part := strongest_le nonneg fun w _ => under (491 + i + w) (by omega)
    exact part.trans (mul_le_of_le_one_left nonneg (pull_le_one 11))

theorem beatExpectation_le {i : ℕ} (other : i ≠ 4) :
    beatExpectation (10.5 : ℝ) i * 1.009 ≤ beatExpectation (10.5 : ℝ) 4 := by
  have away : (0.75 : ℝ) ^ 2 ≤ ((i + 1 : ℕ) - 10.5 * 0.5) ^ 2 := by
    rcases Nat.lt_or_ge i 4 with early | late
    · have small : ((i + 1 : ℕ) : ℝ) ≤ 4 := by exact_mod_cast early
      nlinarith
    · have large : (6 : ℝ) ≤ ((i + 1 : ℕ) : ℝ) := by exact_mod_cast (by omega : 6 ≤ i + 1)
      nlinarith
  have step : (1.009 : ℝ) ≤ Real.exp (0.5 / 55.125) :=
    le_trans (by norm_num) (Real.add_one_le_exp _)
  have shape : ∀ k : ℕ, beatExpectation (10.5 : ℝ) k =
      Real.exp (-((k + 1 : ℕ) - 10.5 * 0.5 : ℝ) ^ 2 / 55.125) := by
    intro k
    rw [beatExpectation, two_eq]
    change Real.exp _ = Real.exp _
    congr 1
    ring
  rw [shape, shape]
  calc Real.exp (-((i + 1 : ℕ) - 10.5 * 0.5 : ℝ) ^ 2 / 55.125) * 1.009
      ≤ Real.exp (-((i + 1 : ℕ) - 10.5 * 0.5 : ℝ) ^ 2 / 55.125) * Real.exp (0.5 / 55.125) :=
        mul_le_mul_of_nonneg_left step (Real.exp_pos _).le
    _ = Real.exp (-((i + 1 : ℕ) - 10.5 * 0.5 : ℝ) ^ 2 / 55.125 + 0.5 / 55.125) :=
        (Real.exp_add _ _).symm
    _ ≤ Real.exp (-((4 + 1 : ℕ) - 10.5 * 0.5 : ℝ) ^ 2 / 55.125) := by
        apply Real.exp_le_exp.mpr
        rw [← add_div]
        apply div_le_div_of_nonneg_right _ (by norm_num)
        have centre : (((4 + 1 : ℕ) : ℝ) - 10.5 * 0.5) ^ 2 = 0.0625 := by norm_num
        rw [centre]
        linarith

theorem bestBeat_of_level (period : st.beatPeriod = 10.5) {c : ℝ} (positive : 0 < c)
    (below : ∀ j < 21, st.age j ≤ c) (level : c < st.age 6 * 1.009) : st.bestBeat = 4 := by
  have best : pull 11 * st.age 6 ≤ (st.projected 11).getD (512 + 4) 0 := by
    rw [getD_projected_new st (by decide) (by decide)]
    have filled : 501 + 4 < (st.projected 4).length := by
      rw [length_projected]
      decide
    have lower := le_strongest filled
    rwa [getD_projected_past st 4 (by decide)] at lower
  have other : ∀ i < 11, (st.projected 11).getD (512 + i) 0 ≤ pull 11 * c := by
    intro i inside
    rw [getD_projected_new st inside (by decide)]
    exact strongest_le positive.le fun w _ => projected_le positive.le below i (by omega)
  have expected : ∀ i, 0 < beatExpectation (10.5 : ℝ) i := fun i => Real.exp_pos _
  have age : 0 < st.age 6 := by linarith
  rw [bestBeat, futureCs_eq period, period, beatWindow_eq]
  apply foldl_place (v := fun i => (st.projected 11).getD (512 + i) 0 * beatExpectation 10.5 i)
    (by decide)
  · exact mul_pos ((mul_pos (pull_pos 11) age).trans_le best) (expected 4)
  · intro i inside elsewhere
    calc (st.projected 11).getD (512 + i) 0 * beatExpectation 10.5 i
        ≤ pull 11 * c * beatExpectation 10.5 i :=
          mul_le_mul_of_nonneg_right (other i inside) (expected i).le
      _ < pull 11 * (st.age 6 * 1.009) * beatExpectation 10.5 i :=
          mul_lt_mul_of_pos_right (mul_lt_mul_of_pos_left level (pull_pos 11)) (expected i)
      _ = pull 11 * st.age 6 * (beatExpectation 10.5 i * 1.009) := by ring
      _ ≤ pull 11 * st.age 6 * beatExpectation 10.5 4 :=
          mul_le_mul_of_nonneg_left (beatExpectation_le elsewhere)
            (mul_pos (pull_pos 11) age).le
      _ ≤ (st.projected 11).getD (512 + 4) 0 * beatExpectation 10.5 4 :=
          mul_le_mul_of_nonneg_right best (expected 4).le

end Projection

/-! ### The score of silence -/

/-- Where the score of silence settles. -/
noncomputable def silentLevel : ℝ := (1 - kAlpha) * 1e-4 / (1 - kAlpha * pull 11)

theorem silentLevel_eq :
    (1 - kAlpha) * 1e-4 + kAlpha * (pull 11 * silentLevel) = silentLevel := by
  have below := pull_le_one 11
  have apart : 1 - (kAlpha : ℝ) * pull 11 ≠ 0 := by
    unfold kAlpha
    intro zero
    linarith
  rw [silentLevel]
  field_simp
  ring

theorem silentLevel_pos : 0 < silentLevel := by
  have below := pull_le_one 11
  unfold silentLevel kAlpha
  apply div_pos
  · norm_num
  · linarith

section Silence

/-- The tracker before call `k` of an endless silence. -/
noncomputable def silent (k : ℕ) : BeatTracker ℝ :=
  initial.before (steady (fun _ => 0) 10.5) k

theorem silent_succ (k : ℕ) : silent (k + 1) = ((silent k).process 0 10.5).1 := rfl

theorem age_silent_zero (k : ℕ) :
    (silent (k + 1)).age 0 =
      (1 - kAlpha) * 1e-4 + kAlpha * strongest (silent k).linear 0 := by
  rw [silent_succ, age_process_zero, usedPeriod_eq, newCs, abs_zero, zero_add, windowStart_eq,
    windowEnd_eq, windowSize_eq]
  rfl

theorem age_silent_succ (k : ℕ) {j : ℕ} (inside : j + 1 < 512) :
    (silent (k + 1)).age (j + 1) = (silent k).age j := by
  rw [silent_succ, age_process_succ _ _ _ inside]

theorem le_age_silent_zero (k : ℕ) :
    (1 - kAlpha) * 1e-4 + kAlpha * (pull 11 * (silent k).age 10) ≤ (silent (k + 1)).age 0 := by
  have filled : 501 + 0 < (silent k).linear.length := by
    rw [length_linear]
    decide
  have least := le_strongest filled
  rw [linear_getD _ (by decide)] at least
  have alpha : (0 : ℝ) < kAlpha := by norm_num [kAlpha]
  rw [age_silent_zero]
  exact add_le_add_right (mul_le_mul_of_nonneg_left least alpha.le) _

theorem age_silent_mem (k : ℕ) {j : ℕ} (inside : j < 512) :
    0 ≤ (silent k).age j ∧ (silent k).age j ≤ silentLevel := by
  induction k generalizing j with
  | zero => exact ⟨le_rfl, silentLevel_pos.le⟩
  | succ k ih =>
    cases j with
    | zero =>
      have linear : ∀ w < 17, (silent k).linear.getD (491 + 0 + w) 0 ≤ silentLevel := by
        intro w bounded
        rw [linear_getD _ (by omega)]
        exact (ih (by omega)).2
      have most := strongest_le silentLevel_pos.le linear
      have old := mul_nonneg (pull_pos 11).le (ih (j := 10) (by decide)).1
      have alpha : (0 : ℝ) < kAlpha := by norm_num [kAlpha]
      constructor
      · have floor : (0 : ℝ) ≤ (1 - kAlpha) * 1e-4 := by norm_num [kAlpha]
        exact (add_nonneg floor (mul_nonneg alpha.le old)).trans (le_age_silent_zero k)
      · rw [age_silent_zero]
        calc (1 - kAlpha) * 1e-4 + kAlpha * strongest (silent k).linear 0
            ≤ (1 - kAlpha) * 1e-4 + kAlpha * (pull 11 * silentLevel) :=
              add_le_add_right (mul_le_mul_of_nonneg_left most alpha.le) _
          _ = silentLevel := silentLevel_eq
    | succ j =>
      rw [age_silent_succ k inside]
      exact ih (by omega)

theorem age_silent_ge (k m : ℕ) {j : ℕ} (inside : j < 512) (late : 11 * m + j + 1 ≤ k) :
    silentLevel * (1 - kAlpha ^ m) ≤ (silent k).age j := by
  induction k generalizing m j with
  | zero => omega
  | succ k ih =>
    cases j with
    | succ j =>
      rw [age_silent_succ k inside]
      exact ih m (by omega) (by omega)
    | zero =>
      cases m with
      | zero =>
        rw [pow_zero, sub_self, mul_zero]
        exact (age_silent_mem (k + 1) inside).1
      | succ m =>
        have old := ih m (j := 10) (by decide) (by omega)
        have alpha : (0 : ℝ) < kAlpha := by norm_num [kAlpha]
        have missing : 0 ≤ silentLevel * kAlpha ^ (m + 1) :=
          mul_nonneg silentLevel_pos.le (pow_nonneg alpha.le _)
        have part : silentLevel * kAlpha ^ (m + 1) * pull 11 ≤ silentLevel * kAlpha ^ (m + 1) :=
          mul_le_of_le_one_right missing (pull_le_one 11)
        calc silentLevel * (1 - kAlpha ^ (m + 1))
            ≤ silentLevel - silentLevel * kAlpha ^ (m + 1) * pull 11 := by linarith
          _ = (1 - kAlpha) * 1e-4 + kAlpha * (pull 11 * silentLevel) -
                silentLevel * kAlpha ^ (m + 1) * pull 11 := by rw [silentLevel_eq]
          _ = (1 - kAlpha) * 1e-4 + kAlpha * (pull 11 * (silentLevel * (1 - kAlpha ^ m))) := by
            rw [pow_succ]
            ring
          _ ≤ (1 - kAlpha) * 1e-4 + kAlpha * (pull 11 * (silent k).age 10) :=
            add_le_add_right (mul_le_mul_of_nonneg_left
              (mul_le_mul_of_nonneg_left old (pull_pos 11).le) alpha.le) _
          _ ≤ (silent (k + 1)).age 0 := le_age_silent_zero k

theorem offset_silent {k : ℕ} (late : 502 ≤ k) :
    initial.offsetAt (steady (fun _ => (0 : ℝ)) 10.5) k = 4 := by
  have ages : ∀ j, ((silent k).advanced 0 10.5).age j = (silent (k + 1)).age j := by
    intro j
    rw [age, age, silent_succ, scoreRing_process]
  have settled := age_silent_ge (k + 1) 45 (j := 6) (by decide) (by omega)
  have short : (kAlpha : ℝ) ^ 45 ≤ 0.0089 := by norm_num [kAlpha]
  have positive := silentLevel_pos
  apply bestBeat_of_level usedPeriod_eq positive
  · intro j inside
    change ((silent k).advanced 0 10.5).age j ≤ silentLevel
    rw [ages]
    exact (age_silent_mem (k + 1) (by omega)).2
  · change silentLevel < ((silent k).advanced 0 10.5).age 6 * 1.009
    rw [ages]
    have most : silentLevel * (1 - 0.0089) ≤ silentLevel * (1 - kAlpha ^ 45) :=
      mul_le_mul_of_nonneg_left (by linarith) positive.le
    linarith

end Silence

/-! ### Beats to a second -/

/-- The beats from the first prediction on are at most three to every window of at most `r`
calls. -/
def FlashesAtMostThree (r period : ℝ) (odf : ℕ → ℝ) : Prop :=
  ∀ a w : ℕ, 9 ≤ a → (w : ℝ) ≤ r →
    countIn (fun k => initial.fires (steady odf period) k = true) a w ≤ 3

/-- A second holds at most three beats, whatever is heard, where three half periods, rounded,
fill it. -/
theorem flash_rate_le {r bpm : ℝ} (odf : ℕ → ℝ) (tempo : bpm ∈ Set.Icc (80 : ℝ) 160)
    (tracked : 60 * r / bpm ∈ Set.Icc (10 : ℝ) 256)
    (slow : ⌊r⌋ ≤ 3 * roundAway (60 * r / bpm * 0.5)) :
    FlashesAtMostThree r (60 * r / bpm) odf := by
  have quick : (0 : ℝ) < bpm := by linarith [tempo.1]
  have rate : 0 ≤ r := by
    have calls := (le_div_iff₀ quick).mp tracked.1
    linarith
  have half : halfPeriod (60 * r / bpm) = roundAway (60 * r / bpm * 0.5) := by
    rw [halfPeriod, usedPeriod_of_usable ⟨by linarith [tracked.1], by linarith [tracked.2]⟩]
  intro a w late short
  have inside : (w : ℤ) ≤ ⌊r⌋ := Int.le_floor.mpr (by exact_mod_cast short)
  refine (three_to_window_iff odf (60 * r / bpm) w).mpr (fun j => ?_) a late
  have filled : (w : ℤ) ≤ 3 * (halfPeriod (60 * r / bpm)).toNat := by
    have positive := five_le_halfPeriod (60 * r / bpm)
    omega
  omega

/-- Onsets every seventh call, three to a period of 80 BPM at 28 calls a second. -/
def triplets (k : ℕ) : ℝ := if k % 7 = 0 then 1 else 0

theorem triplets_flash_rate_le :
    (∃ k, 9 ≤ k ∧ initial.fires (steady triplets (60 * 28 / 80)) k = true) ∧
      FlashesAtMostThree 28 (60 * 28 / 80) triplets := by
  have floor : ⌊(28 : ℝ)⌋ = 28 := Int.floor_ofNat 28
  have half : roundAway (60 * 28 / 80 * 0.5 : ℝ) = 11 := by
    rw [roundAway_of_nonneg (by norm_num), Int.floor_eq_iff]
    norm_num
  refine ⟨⟨_, Nat.le_add_right 9 _, (beat_at_offset (predicts_at (steered_steady _ _) 0)).1⟩,
    flash_rate_le triplets (by norm_num) (by norm_num) ?_⟩
  rw [floor, half]
  norm_num

/-- At 160 BPM and 28 calls a second, silence flashes four times in a second. -/
theorem silence_flashes_four_times :
    ¬ ∀ (r bpm : ℝ) (odf : ℕ → ℝ), bpm ∈ Set.Icc (80 : ℝ) 160 →
      60 * r / bpm ∈ Set.Icc (10 : ℝ) 256 → FlashesAtMostThree r (60 * r / bpm) odf := by
  intro safe
  have period : (60 * 28 / 160 : ℝ) = 10.5 := by norm_num
  have few := safe 28 160 (fun _ => 0) (by norm_num) (by norm_num)
  rw [period] at few
  have filled := (three_to_window_iff (fun _ => (0 : ℝ)) 10.5 28).mp
    (fun a late => few a 28 late (by norm_num)) 99
  have late : ∀ j, 9 + 5 * j ≤ predictionAt (steady (fun _ => (0 : ℝ)) 10.5) j := by
    intro j
    induction j with
    | zero => exact le_rfl
    | succ j ih =>
      have half : halfPeriod (steady (fun _ => (0 : ℝ)) 10.5
          (predictionAt (steady (fun _ => (0 : ℝ)) 10.5) j)).2 = 5 := halfPeriod_eq
      rw [predictionAt_succ, half, predictedBeat]
      omega
  have four : ∀ j, 99 ≤ j → offset (fun _ => (0 : ℝ)) 10.5 j = 4 := by
    intro j settled
    have call := late j
    exact offset_silent (by omega)
  rw [halfPeriod_eq, four _ (by omega), four _ (by omega), four _ (by omega)] at filled
  omega

end Listeningway.Dsp.BeatTracker
