/- Listeningway/Dsp/BeatGaps
   source: src/audio/dsp/beat/beat_tracker.cpp
   digest: One beat for every prediction, and how far apart two beats can be. -/

import Listeningway.Dsp.BeatSchedule
import Listeningway.Lib.FoldMax

set_option autoImplicit false
set_option relaxedAutoImplicit false

namespace Listeningway.Dsp.BeatTracker

open Listeningway.Lib.Clamp
open Listeningway.Lib.FoldMax
open Listeningway.Lib.StreamRun

variable {K : Type} [Field K] [LinearOrder K] [FloorRing K] [Cmath K]

/-! ### The calls that predict -/

/-- Call `k` reaches `predictBeat`. -/
def Predicts (start : BeatTracker K) (input : ℕ → K × K) (k : ℕ) : Prop :=
  ((start.before input k).advanced (input k).1 (input k).2).timeToNextPrediction ≤ 0

theorem predicts_iff (start : BeatTracker K) (input : ℕ → K × K) (k : ℕ) :
    start.Predicts input k ↔ (start.before input k).timeToNextPrediction ≤ 1 := by
  change (start.before input k).timeToNextPrediction - 1 ≤ 0 ↔ _
  omega

theorem offsetAt_lt (start : BeatTracker K) (input : ℕ → K × K) (k : ℕ) :
    (start.offsetAt input k : ℤ) < max 2 (roundAway (usedPeriod (input k).2)) := by
  have inside : start.offsetAt input k < beatWindow (usedPeriod (input k).2) :=
    foldl_place_lt _ 0 (by unfold beatWindow; omega)
  unfold beatWindow at inside
  omega

section Fresh

variable (input : ℕ → K × K)

theorem initial_predicts_late {k : ℕ} (now : initial.Predicts input k) : 9 ≤ k := by
  rw [predicts_iff] at now
  by_contra early
  have counted := initial_counts_down input (k := k) (by omega)
  omega

variable [IsStrictOrderedRing K]

omit [Cmath K] in
theorem ten_le_roundAway (period : K) : 10 ≤ roundAway (usedPeriod period) := by
  have long := (usedPeriod_mem period).1
  rw [roundAway_of_nonneg (by linarith), Int.le_floor]
  push_cast
  linarith

theorem initial_placeholder {i : ℕ} (early : i ≤ 8) :
    ((initial : BeatTracker K).before input (i + 1)).timeToNextBeat =
      roundAway (usedPeriod (input 0).2) - i := by
  have long := ten_le_roundAway (input 0).2
  induction i with
  | zero =>
    have prediction := initial_counts_down input (k := 0) (by omega)
    have beat : ((initial : BeatTracker K).before input 0).timeToNextBeat = -1 := rfl
    rw [before_succ, process_due _ _ (by omega) (by omega)]
    exact (sub_zero _).symm
  | succ i ih =>
    have waits := ih (by omega)
    have later := initial_counts_down input (k := i + 1) (by omega)
    rw [before_succ, process_quiet _ _ (by omega) (by omega)]
    change ((initial : BeatTracker K).before input (i + 1)).timeToNextBeat - 1 = _
    omega

end Fresh

section Steered

variable {input : ℕ → K × K} [IsStrictOrderedRing K] (steered : Steered input)

include steered

theorem countdowns_positive (k : ℕ) :
    1 ≤ ((initial : BeatTracker K).before input (k + 1)).timeToNextBeat ∧
      1 ≤ ((initial : BeatTracker K).before input (k + 1)).timeToNextPrediction := by
  rcases Nat.lt_or_ge k 9 with early | late
  · have long := ten_le_roundAway (input 0).2
    have beat := initial_placeholder input (i := k) (by omega)
    have prediction := initial_counts_down input (k := k + 1) (by omega)
    omega
  · obtain ⟨j, reached, next⟩ := between_predictions input late
    have now := predicts_at steered j
    have half := five_le_halfPeriod (input (predictionAt input j)).2
    obtain ⟨i, rfl⟩ := Nat.exists_eq_add_of_le reached
    rw [predictionAt_succ, predictedBeat] at next
    rcases Nat.lt_or_ge i (initial.offsetAt input (predictionAt input j)) with ahead | behind
    · have counted := counts_before_beat now ahead
      rw [Nat.add_right_comm] at counted
      omega
    · -- the beat of this prediction has fallen, its placeholder outlasts the half period
      obtain ⟨l, rfl⟩ := Nat.exists_eq_add_of_le behind
      have counted := counts_after_beat steered now (i := l) (by omega)
      have outlasts := steered (predictionAt input j)
        (predictionAt input j + initial.offsetAt input (predictionAt input j))
      have call : predictionAt input j +
            (initial.offsetAt input (predictionAt input j) + l) + 1 =
          predictionAt input j + initial.offsetAt input (predictionAt input j) + 1 + l := by
        omega
      rw [call]
      omega

theorem not_predicts_between {j k : ℕ} (after : predictionAt input j < k)
    (ahead : k < predictionAt input (j + 1)) : ¬ initial.Predicts input k := by
  have now := predicts_at steered j
  have half := five_le_halfPeriod (input (predictionAt input j)).2
  rw [predicts_iff]
  rw [predictionAt_succ, predictedBeat] at ahead
  rcases Nat.lt_or_ge (predictedBeat input j) k with behind | early
  · obtain ⟨i, rfl⟩ := Nat.exists_eq_add_of_lt behind
    have counted := (counts_after_beat steered now (i := i) (by
      rw [predictedBeat] at ahead
      omega)).2
    rw [predictedBeat] at ahead ⊢
    rw [Nat.add_right_comm, counted]
    omega
  · obtain ⟨i, rfl⟩ := Nat.exists_eq_add_of_lt after
    rw [predictedBeat] at early
    have counted := (counts_before_beat now (i := i) (by omega)).2
    rw [Nat.add_right_comm, counted]
    omega

theorem predicts_iff_predictionAt {k : ℕ} :
    initial.Predicts input k ↔ ∃ j, predictionAt input j = k := by
  constructor
  · intro now
    obtain ⟨j, reached, next⟩ := between_predictions input (initial_predicts_late input now)
    refine ⟨j, ?_⟩
    by_contra elsewhere
    exact not_predicts_between steered (Nat.lt_of_le_of_ne reached elsewhere) next now
  · rintro ⟨j, rfl⟩
    exact (predicts_iff _ _ _).mpr (predicts_at steered j)

theorem one_beat_per_prediction {k : ℕ} (now : initial.Predicts input k) :
    ∃ next, k < next ∧ initial.Predicts input next ∧
      (∀ i, k < i → i < next → ¬ initial.Predicts input i) ∧
      ∃! b, k ≤ b ∧ b < next ∧ initial.fires input b = true := by
  obtain ⟨j, rfl⟩ := (predicts_iff_predictionAt steered).mp now
  refine ⟨predictionAt input (j + 1), predictionAt_strictMono input (Nat.lt_succ_self j),
    (predicts_iff_predictionAt steered).mpr ⟨j + 1, rfl⟩,
    fun i after ahead => not_predicts_between steered after ahead, predictedBeat input j,
    ⟨predictionAt_le_predictedBeat input j, predictedBeat_lt input j,
      (beat_at_offset (predicts_at steered j)).1⟩, ?_⟩
  rintro b ⟨reached, ahead, fired⟩
  obtain ⟨j', rfl⟩ := (fires_iff steered ((initial_predicts_late input now).trans reached)).mp fired
  -- the beat of another prediction lies behind the next one or before this one
  have upper : j' < j + 1 := (predictionAt_strictMono input).lt_iff_lt.mp
    ((predictionAt_le_predictedBeat input j').trans_lt ahead)
  have lower : j < j' + 1 := (predictionAt_strictMono input).lt_iff_lt.mp
    (reached.trans_lt (predictedBeat_lt input j'))
  rw [Nat.le_antisymm (Nat.lt_succ_iff.mp upper) (Nat.lt_succ_iff.mp lower)]

theorem consecutive_beats {b b' : ℕ} (late : 9 ≤ b) (later : b < b')
    (fired : initial.fires input b = true) (fired' : initial.fires input b' = true)
    (silent : ∀ i, b < i → i < b' → initial.fires input i = false) :
    ∃ j, predictedBeat input j = b ∧ predictedBeat input (j + 1) = b' := by
  obtain ⟨j, rfl⟩ := (fires_iff steered late).mp fired
  obtain ⟨j', rfl⟩ := (fires_iff steered (late.trans later.le)).mp fired'
  have order : j < j' := (predictedBeat_strictMono input).lt_iff_lt.mp later
  refine ⟨j, rfl, ?_⟩
  by_contra skipped
  have apart : j + 1 ≠ j' := fun same => skipped (congrArg _ same)
  have between : predictedBeat input (j + 1) < predictedBeat input j' :=
    predictedBeat_strictMono input (by omega)
  have quiet := silent _ (predictedBeat_strictMono input (Nat.lt_succ_self j)) between
  have falls : initial.fires input (predictedBeat input (j + 1)) = true :=
    (beat_at_offset (predicts_at steered (j + 1))).1
  rw [falls] at quiet
  cases quiet

end Steered

/-! ### Periods within a factor of two -/

section Band

variable [IsStrictOrderedRing K]

variable {input : ℕ → K × K} {bmin bmax : K}
  (band : ∀ k, bmin ≤ usedPeriod (input k).2 ∧ usedPeriod (input k).2 ≤ bmax)

include band

omit [Cmath K] in
theorem steered_of_band (narrow : bmax ≤ 2 * bmin) : Steered input := by
  intro k k'
  have long := (usedPeriod_mem (input k).2).1
  have upper := (band k).2
  have lower := (band k').1
  exact roundAway_mono (by linarith) (by linarith)

omit [Cmath K] in
theorem halfPeriod_mem (positive : 0 ≤ bmin) (k : ℕ) :
    roundAway (bmin * 0.5) ≤ halfPeriod (input k).2 ∧
      halfPeriod (input k).2 ≤ roundAway (bmax * 0.5) := by
  have long := (usedPeriod_mem (input k).2).1
  obtain ⟨lower, upper⟩ := band k
  exact ⟨roundAway_mono (by linarith) (by linarith), roundAway_mono (by linarith) (by linarith)⟩

/-- The schedule of a tracker whose period stays within a factor of two. -/
theorem one_beat_to_each_prediction (narrow : bmax ≤ 2 * bmin) :
    (∀ k, 1 ≤ ((initial : BeatTracker K).before input (k + 1)).timeToNextBeat ∧
      1 ≤ ((initial : BeatTracker K).before input (k + 1)).timeToNextPrediction) ∧
    (∀ k, initial.Predicts input k →
      ∃ next, k < next ∧ initial.Predicts input next ∧
        (∀ i, k < i → i < next → ¬ initial.Predicts input i) ∧
        ∃! b, k ≤ b ∧ b < next ∧ initial.fires input b = true) ∧
    ∀ k b b', initial.Predicts input k → k ≤ b → b < b' →
      initial.fires input b = true → initial.fires input b' = true →
      (∀ i, b < i → i < b' → initial.fires input i = false) →
      roundAway (bmin * 0.5) ≤ (b' : ℤ) - b ∧
        (b' : ℤ) - b ≤ roundAway (bmax * 0.5) + max 2 (roundAway bmax) - 1 := by
  have steered := steered_of_band band narrow
  refine ⟨countdowns_positive steered, fun k => one_beat_per_prediction steered, ?_⟩
  intro k b b' now reached later fired fired' silent
  have late := (initial_predicts_late input now).trans reached
  obtain ⟨j, rfl, rfl⟩ := consecutive_beats steered late later fired fired' silent
  have long := (usedPeriod_mem (input 0).2).1
  have wide := (band 0).2
  obtain ⟨lower, upper⟩ := halfPeriod_mem band (by linarith) (predictionAt input j)
  have half := five_le_halfPeriod (input (predictionAt input j)).2
  have inside := offsetAt_lt initial input (predictionAt input (j + 1))
  have window : roundAway (usedPeriod (input (predictionAt input (j + 1))).2) ≤ roundAway bmax :=
    roundAway_mono (by linarith [(usedPeriod_mem (input (predictionAt input (j + 1))).2).1])
      (band _).2
  have gap : predictedBeat input (j + 1) = predictedBeat input j +
      (halfPeriod (input (predictionAt input j)).2).toNat +
        initial.offsetAt input (predictionAt input (j + 1)) := by
    rw [predictedBeat, predictionAt_succ]
  constructor <;> omega

end Band

/-- A score that stays silent under a period that jumps between 10 and 20 samples. -/
noncomputable def alternating (k : ℕ) : ℝ × ℝ := (0, if k % 2 = 0 then 10.0 else 20.0)

theorem usedPeriod_alternating (k : ℕ) :
    10 ≤ usedPeriod (alternating k).2 ∧ usedPeriod (alternating k).2 ≤ 20 := by
  unfold alternating
  split_ifs
  · rw [usedPeriod, clamp_of_mem (by norm_num) (by norm_num [kBufferSize])]
    norm_num
  · rw [usedPeriod, clamp_of_mem (by norm_num) (by norm_num [kBufferSize])]
    norm_num

/-- The tenth call predicts, so beats fall, and they lie within the bounds of these periods. -/
theorem alternating_beats_apart :
    initial.Predicts alternating 9 ∧ (∃ b, 9 ≤ b ∧ initial.fires alternating b = true) ∧
    (∀ k, initial.Predicts alternating k →
      ∃ next, k < next ∧ initial.Predicts alternating next ∧
        (∀ i, k < i → i < next → ¬ initial.Predicts alternating i) ∧
        ∃! b, k ≤ b ∧ b < next ∧ initial.fires alternating b = true) ∧
    ∀ k b b', initial.Predicts alternating k → k ≤ b → b < b' →
      initial.fires alternating b = true → initial.fires alternating b' = true →
      (∀ i, b < i → i < b' → initial.fires alternating i = false) →
      5 ≤ (b' : ℤ) - b ∧ (b' : ℤ) - b ≤ 29 := by
  have shortest : roundAway ((10 : ℝ) * 0.5) = 5 := by
    rw [roundAway_of_nonneg (by norm_num), Int.floor_eq_iff]
    norm_num
  have longest : roundAway ((20 : ℝ) * 0.5) = 10 := by
    rw [roundAway_of_nonneg (by norm_num), Int.floor_eq_iff]
    norm_num
  have window : roundAway (20 : ℝ) = 20 := by
    rw [roundAway_of_nonneg (by norm_num), Int.floor_eq_iff]
    norm_num
  obtain ⟨-, one, gaps⟩ := one_beat_to_each_prediction usedPeriod_alternating (by norm_num)
  rw [shortest, longest, window] at gaps
  have tenth : initial.Predicts alternating 9 :=
    (predicts_iff_predictionAt (steered_of_band usedPeriod_alternating (by norm_num))).mpr ⟨0, rfl⟩
  obtain ⟨_, -, -, -, b, ⟨reached, -, fired⟩, -⟩ := one 9 tenth
  exact ⟨tenth, ⟨b, reached, fired⟩, one, gaps⟩

end Listeningway.Dsp.BeatTracker
