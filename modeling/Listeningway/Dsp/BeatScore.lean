/- Listeningway/Dsp/BeatScore
   source: src/audio/dsp/beat/beat_tracker.cpp
   digest: The cumulative score at every period: its bounds, and that it never dies. -/

import Listeningway.Dsp.BeatProjection
import Mathlib.Data.Finset.Max

/-!
The score is a mean of the onset and of a window over older scores, so no bound is left; a
tenth of the floor under the onset reaches every sample, so every window finds something.
-/

set_option autoImplicit false
set_option relaxedAutoImplicit false

namespace Listeningway.Dsp.BeatTracker

open Listeningway.Lib

/-! ### The weights -/

theorem getD_logGaussianWindow {size w : ℕ} (period : ℝ) (inside : w < size) :
    0 < (logGaussianWindow size period).getD w 0 ∧
      (logGaussianWindow size period).getD w 0 ≤ 1 := by
  have form : ∃ a : ℝ, (logGaussianWindow size period).getD w 0 = Real.exp (-(a * a) * 0.5) :=
    ⟨_, logGaussianWindow_getD period inside⟩
  obtain ⟨a, value⟩ := form
  rw [value]
  refine ⟨Real.exp_pos _, Real.exp_le_one_iff.mpr ?_⟩
  linarith [mul_self_nonneg a]

/-! ### One window -/

theorem windowMax_le_of_le {c : ℝ} (nonneg : 0 ≤ c) (period : ℝ) {source : List ℝ}
    (below : ∀ j, source.getD j 0 ≤ c) (i : ℕ) : windowMax period source i ≤ c := by
  apply windowMax_le nonneg
  intro j w _ inside
  obtain ⟨positive, small⟩ := getD_logGaussianWindow period inside
  calc source.getD j 0 * (logGaussianWindow (windowSize period) period).getD w 0
      ≤ c * (logGaussianWindow (windowSize period) period).getD w 0 :=
        mul_le_mul_of_nonneg_right (below j) positive.le
    _ ≤ c := mul_le_of_le_one_right nonneg small

theorem windowMax_pos {period : ℝ} (usable : Usable period) {source : List ℝ} {i : ℕ}
    (room : 512 + i ≤ source.length) (alive : ∀ j < 512 + i, 0 < source.getD j 0) :
    0 < windowMax period source i := by
  obtain ⟨past, order, recent⟩ := window_bounds usable
  have size := windowSize_eq_sub usable
  obtain ⟨j, oldest⟩ := Int.eq_ofNat_of_zero_le past
  have place : windowStart period + i + (0 : ℕ) = (j + i : ℕ) := by
    rw [oldest]
    omega
  have inside : 0 < windowSize period := by omega
  have last : ((j + i : ℕ) : ℤ) ≤ windowEnd period + i := by omega
  have filled : j + i < source.length := by omega
  have term := le_windowMax place inside last filled
  exact (mul_pos (alive _ (by omega)) (getD_logGaussianWindow period inside).1).trans_le term

/-! ### One call -/

/-- Every sample of the score lies between 0 and `c`. -/
def Within (c : ℝ) (st : BeatTracker ℝ) : Prop :=
  ∀ slot, 0 ≤ st.cumulativeScore slot ∧ st.cumulativeScore slot ≤ c

/-- The `n` newest samples of the score are at least a tenth of the floor under the onset. -/
def Alive (n : ℕ) (st : BeatTracker ℝ) : Prop := ∀ j < n, j < 512 → 1e-5 ≤ st.age j

section Call

variable {st : BeatTracker ℝ} {c : ℝ}

theorem Within.linear (within : Within c st) (nonneg : 0 ≤ c) (j : ℕ) :
    st.linear.getD j 0 ≤ c := by
  rcases Nat.lt_or_ge j 512 with inside | outside
  · rw [linear_getD st inside]
    exact (within _).2
  · rw [List.getD_eq_default _ _ (by
      rw [length_linear]
      exact outside)]
    exact nonneg

theorem newCs_le (within : Within c st) {odf : ℝ} (nonneg : 0 ≤ c) (below : odf ≤ c)
    (period : ℝ) : st.newCs odf period ≤ c := by
  have window := windowMax_le_of_le nonneg period (within.linear nonneg) 0
  rw [newCs_eq, kAlpha]
  linarith

theorem le_newCs (st : BeatTracker ℝ) {odf : ℝ} (floor : 1e-4 ≤ odf) (period : ℝ) :
    1e-5 ≤ st.newCs odf period := by
  have window := windowMax_nonneg period st.linear 0
  rw [newCs_eq, kAlpha]
  linarith

theorem cumulativeScore_process (st : BeatTracker ℝ) (odf period : ℝ) :
    (st.process odf period).1.cumulativeScore =
      Function.update st.cumulativeScore st.csHead
        (st.newCs (|odf| + 1e-4) (usedPeriod period)) :=
  congrArg HistoryRing.slots (scoreRing_process st odf period)

theorem within_advanced (within : Within c st) {odf : ℝ} (below : |odf| + 1e-4 ≤ c)
    (period : ℝ) : Within c (st.advanced odf period) := by
  have loud := abs_nonneg odf
  intro slot
  change 0 ≤ Function.update st.cumulativeScore st.csHead _ slot ∧
    Function.update st.cumulativeScore st.csHead _ slot ≤ c
  by_cases written : slot = st.csHead
  · rw [written, Function.update_self]
    have lower := le_newCs st (le_add_of_nonneg_left loud) (usedPeriod period)
    exact ⟨by linarith, newCs_le within (by linarith) below _⟩
  · rw [Function.update_of_ne written]
    exact within slot

theorem within_process (within : Within c st) {odf : ℝ} (below : |odf| + 1e-4 ≤ c)
    (period : ℝ) : Within c (st.process odf period).1 := by
  intro slot
  rw [cumulativeScore_process]
  exact within_advanced within below period slot

theorem alive_process {n : ℕ} (alive : Alive n st) (odf period : ℝ) :
    Alive (n + 1) (st.process odf period).1 := by
  intro j newer inside
  cases j with
  | zero =>
    rw [age_process_zero]
    exact le_newCs st (le_add_of_nonneg_left (abs_nonneg odf)) _
  | succ j =>
    rw [age_process_succ st odf period inside]
    exact alive j (by omega) (by omega)

theorem Alive.slot (alive : Alive 512 st) (slot : Fin kBufferSize) :
    1e-5 ≤ st.cumulativeScore slot := by
  obtain ⟨j, inside, value⟩ := st.scoreRing.exists_ago slot
  exact (alive j inside inside).trans_eq value

end Call

/-! ### The projection -/

section Projection

variable {st : BeatTracker ℝ} {c : ℝ}

theorem extended_within (within : Within c st) (nonneg : 0 ≤ c) (period : ℝ) (i j : ℕ) :
    0 ≤ (st.extended period i).getD j 0 ∧ (st.extended period i).getD j 0 ≤ c := by
  apply getD_extended_of (P := fun x => 0 ≤ x ∧ x ≤ c) st period ⟨le_rfl, nonneg⟩ _ _ i
    (Nat.zero_le j)
  · intro j _ _
    exact within _
  · intro source i below
    exact ⟨windowMax_nonneg period source i,
      windowMax_le_of_le nonneg period (fun j => (below j (Nat.zero_le j)).2) i⟩

theorem extended_alive (alive : Alive 512 st) {period : ℝ} (usable : Usable period) {i j : ℕ}
    (room : i ≤ max 256 (beatWindow period)) (known : j < 512 + i) :
    0 < (st.extended period i).getD j 0 := by
  induction i generalizing j with
  | zero =>
    rw [getD_extended_past st period 0 known]
    have least := alive (511 - j) (by omega) (by omega)
    linarith
  | succ i ih =>
    rw [getD_extended_succ]
    split_ifs with here
    · apply windowMax_pos usable
      · rw [length_extended]
        omega
      · exact fun j earlier => ih (by omega) earlier
    · exact ih (by omega) (by omega)

end Projection

/-! ### Every run -/

/-- The score that the prediction of call `k` expects `i` samples ahead. -/
noncomputable def projectedScore (input : ℕ → ℝ × ℝ) (k i : ℕ) : ℝ :=
  ((initial.before input k).advanced (input k).1 (input k).2).futureCs.getD (kBufferSize + i) 0

section Runs

variable {input : ℕ → ℝ × ℝ} {M : ℝ} (bounded : ∀ k, |(input k).1| ≤ M)

include bounded in
theorem within_before (k : ℕ) : Within (M + 1e-4) (initial.before input k) := by
  induction k with
  | zero =>
    have loud := (abs_nonneg (input 0).1).trans (bounded 0)
    intro slot
    exact ⟨le_rfl, by change (0 : ℝ) ≤ _; linarith⟩
  | succ k ih =>
    rw [before_succ]
    exact within_process ih (by linarith [bounded k]) _

theorem alive_before (input : ℕ → ℝ × ℝ) (k : ℕ) : Alive k (initial.before input k) := by
  induction k with
  | zero => exact fun j none => absurd none (Nat.not_lt_zero j)
  | succ k ih =>
    rw [before_succ]
    exact alive_process ih _ _

theorem projectedScore_eq (input : ℕ → ℝ × ℝ) (k i : ℕ) :
    projectedScore input k i =
      (((initial.before input k).advanced (input k).1 (input k).2).extended
        (usedPeriod (input k).2) (beatWindow (usedPeriod (input k).2))).getD (512 + i) 0 := rfl

include bounded in
theorem projectedScore_mem (k i : ℕ) :
    0 ≤ projectedScore input k i ∧ projectedScore input k i ≤ M + 1e-4 := by
  have loud := (abs_nonneg (input k).1).trans (bounded k)
  rw [projectedScore_eq]
  apply extended_within _ (by linarith)
  exact within_advanced (within_before bounded k) (by linarith [bounded k]) _

theorem projectedScore_pos (input : ℕ → ℝ × ℝ) {k i : ℕ} (late : 511 ≤ k)
    (inside : i < beatWindow (usedPeriod (input k).2)) : 0 < projectedScore input k i := by
  have alive : Alive 512 ((initial.before input k).advanced (input k).1 (input k).2) := by
    intro j newer _
    have settled := alive_before input (k + 1) j (by omega) newer
    rw [before_succ, age, scoreRing_process] at settled
    exact settled
  rw [projectedScore_eq]
  exact extended_alive alive (usable_usedPeriod _) (le_max_right _ _) (by omega)

include bounded in
/-- The score is bounded by the loudest onset, and none of its samples dies. -/
theorem score_bounded_and_alive (k : ℕ) :
    (∀ slot, 0 ≤ (initial.before input k).cumulativeScore slot ∧
      (initial.before input k).cumulativeScore slot ≤ M + 1e-4) ∧
    (∃ sample, 1e-5 ≤ sample ∧ (initial.before input (k + 1)).cumulativeScore =
      Function.update (initial.before input k).cumulativeScore
        (initial.before input k).csHead sample) ∧
    (512 ≤ k → ∀ slot, 1e-5 ≤ (initial.before input k).cumulativeScore slot) ∧
    (∀ i < beatWindow (usedPeriod (input k).2),
      0 ≤ projectedScore input k i ∧ projectedScore input k i ≤ M + 1e-4) ∧
    (511 ≤ k → ∃ i < beatWindow (usedPeriod (input k).2), 0 < projectedScore input k i ∧
      ∀ j < beatWindow (usedPeriod (input k).2),
        projectedScore input k j ≤ projectedScore input k i) := by
  refine ⟨within_before bounded k, ⟨_, ?_, cumulativeScore_process _ _ _⟩, ?_,
    fun i _ => projectedScore_mem bounded k i, ?_⟩
  · exact le_newCs _ (le_add_of_nonneg_left (abs_nonneg _)) _
  · intro full slot
    have alive : Alive 512 (initial.before input k) := fun j newer inside =>
      alive_before input k j (by omega) inside
    exact alive.slot slot
  · intro full
    have places : (Finset.range (beatWindow (usedPeriod (input k).2))).Nonempty := by
      rw [Finset.nonempty_range_iff, beatWindow]
      omega
    obtain ⟨i, listed, most⟩ := Finset.exists_max_image _ (projectedScore input k) places
    have inside := Finset.mem_range.mp listed
    exact ⟨i, inside, projectedScore_pos input full inside, fun j listed' =>
      most j (Finset.mem_range.mpr listed')⟩

end Runs

/-- Onsets of alternating sign under a period that is far too long. -/
noncomputable def swinging (k : ℕ) : ℝ × ℝ := ((-1) ^ k, 1000.0)

theorem swinging_score :
    (∀ slot, 1e-5 ≤ (initial.before swinging 600).cumulativeScore slot ∧
      (initial.before swinging 600).cumulativeScore slot ≤ 1 + 1e-4) ∧
    ∃ i, 0 < projectedScore swinging 600 i := by
  have unit : ∀ k, |(swinging k).1| ≤ 1 := by
    intro k
    rw [swinging, abs_pow, abs_neg, abs_one, one_pow]
  obtain ⟨within, -, alive, -, ahead⟩ := score_bounded_and_alive unit 600
  obtain ⟨i, -, positive, -⟩ := ahead (by norm_num)
  exact ⟨fun slot => ⟨alive (by norm_num) slot, (within slot).2⟩, i, positive⟩

end Listeningway.Dsp.BeatTracker
