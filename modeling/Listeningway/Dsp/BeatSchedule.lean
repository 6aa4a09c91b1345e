/- Listeningway/Dsp/BeatSchedule
   source: src/audio/dsp/beat/beat_tracker.cpp
   digest: When the beats of a tracker fall: one after every prediction, at the offset it found. -/

import Listeningway.Dsp.Beat.BeatTracker
import Listeningway.Lib.StreamRun
import Mathlib.Algebra.Order.Floor.Ring
import Mathlib.Tactic.Linarith
import Mathlib.Tactic.NormNum

/-!
A prediction sets two countdowns: the beat comes after the offset it found, the next
prediction half a period after the beat. `offsetAt` reads the offset from the score at the
call that predicts; everything else about the schedule follows from the countdowns.
-/

set_option autoImplicit false
set_option relaxedAutoImplicit false

namespace Listeningway.Dsp.BeatTracker

open Listeningway.Lib.Clamp
open Listeningway.Lib.StreamRun

variable {K : Type} [Field K] [LinearOrder K] [FloorRing K] [Cmath K]

/-! ### One call -/

/-- The period as `process` clamps it. -/
def usedPeriod (beatPeriodSamples : K) : K :=
  clamp beatPeriodSamples 10.0 ((kBufferSize : K) * 0.5)

/-- The calls between a beat and the next prediction. -/
def halfPeriod (beatPeriodSamples : K) : ℤ := roundAway (usedPeriod beatPeriodSamples * 0.5)

omit [Field K] [LinearOrder K] [FloorRing K] [Cmath K] in
theorem csHead_next_lt (st : BeatTracker K) : ((st.csHead : ℕ) + 1) % kBufferSize < kBufferSize :=
  Nat.mod_lt _ (by decide)

/-- The tracker with the new sample of the score and its counters moved on. -/
def advanced (st : BeatTracker K) (odfValue beatPeriodSamples : K) : BeatTracker K where
  cumulativeScore := Function.update st.cumulativeScore st.csHead
    (st.newCs (|odfValue| + 1e-4) (usedPeriod beatPeriodSamples))
  csHead := ⟨(st.csHead + 1) % kBufferSize, csHead_next_lt st⟩
  beatPeriod := usedPeriod beatPeriodSamples
  timeToNextBeat := st.timeToNextBeat - 1
  timeToNextPrediction := st.timeToNextPrediction - 1
  beatPhaseCounter := st.beatPhaseCounter + 1

theorem process_eq (st : BeatTracker K) (odf period : K) :
    st.process odf period =
      let s := if (st.advanced odf period).timeToNextPrediction ≤ 0
        then (st.advanced odf period).predictBeat else st.advanced odf period
      if s.timeToNextBeat ≤ 0 then
        ({ s with beatPhaseCounter := 0, timeToNextBeat := roundAway (usedPeriod period) }, true)
      else (s, false) := rfl

/-- A beat falls in the next call: its countdown ends, or a prediction puts it there. -/
def Due (st : BeatTracker K) (odf period : K) : Prop :=
  if st.timeToNextPrediction ≤ 1 then (st.advanced odf period).bestBeat = 0
  else st.timeToNextBeat ≤ 1

section Call

variable {st : BeatTracker K} (odf period : K)

theorem process_due (later : 1 < st.timeToNextPrediction) (due : st.timeToNextBeat ≤ 1) :
    st.process odf period =
      ({ st.advanced odf period with
          beatPhaseCounter := 0
          timeToNextBeat := roundAway (usedPeriod period) }, true) := by
  have waits : ¬ (st.advanced odf period).timeToNextPrediction ≤ 0 := by
    change ¬ st.timeToNextPrediction - 1 ≤ 0
    omega
  have over' : (st.advanced odf period).timeToNextBeat ≤ 0 := by
    change st.timeToNextBeat - 1 ≤ 0
    omega
  rw [process_eq]
  simp only [if_neg waits, if_pos over']

theorem process_quiet (later : 1 < st.timeToNextPrediction) (waits : 1 < st.timeToNextBeat) :
    st.process odf period = (st.advanced odf period, false) := by
  have ahead : ¬ (st.advanced odf period).timeToNextPrediction ≤ 0 := by
    change ¬ st.timeToNextPrediction - 1 ≤ 0
    omega
  have running : ¬ (st.advanced odf period).timeToNextBeat ≤ 0 := by
    change ¬ st.timeToNextBeat - 1 ≤ 0
    omega
  rw [process_eq]
  simp only [if_neg ahead, if_neg running]

theorem process_predicts (now : st.timeToNextPrediction ≤ 1) :
    st.process odf period =
      if (st.advanced odf period).bestBeat = 0 then
        ({ (st.advanced odf period).predictBeat with
            beatPhaseCounter := 0
            timeToNextBeat := roundAway (usedPeriod period) }, true)
      else ((st.advanced odf period).predictBeat, false) := by
  have predicts : (st.advanced odf period).timeToNextPrediction ≤ 0 := by
    change st.timeToNextPrediction - 1 ≤ 0
    omega
  have beat : (st.advanced odf period).predictBeat.timeToNextBeat ≤ 0 ↔
      (st.advanced odf period).bestBeat = 0 := by
    change ((st.advanced odf period).bestBeat : ℤ) ≤ 0 ↔ _
    omega
  rw [process_eq]
  simp only [if_pos predicts, beat]

theorem process_fires_iff (st : BeatTracker K) (odf period : K) :
    (st.process odf period).2 = true ↔ st.Due odf period := by
  unfold Due
  split_ifs with now
  · rw [process_predicts _ _ now]
    by_cases here : (st.advanced odf period).bestBeat = 0
    · rw [if_pos here]
      exact iff_of_true rfl here
    · rw [if_neg here]
      exact iff_of_false Bool.false_ne_true here
  · rcases le_or_gt st.timeToNextBeat 1 with due | waits
    · rw [process_due _ _ (not_le.mp now) due]
      exact iff_of_true rfl due
    · rw [process_quiet _ _ (not_le.mp now) waits]
      exact iff_of_false Bool.false_ne_true (not_le.mpr waits)

end Call

/-! ### Runs -/

/-- The tracker before call `k`; the stream holds the arguments of the calls. -/
def before (start : BeatTracker K) (input : ℕ → K × K) (k : ℕ) : BeatTracker K :=
  stateAt (fun st i => (st.process i.1 i.2).1) start input k

/-- What call `k` returns. -/
def fires (start : BeatTracker K) (input : ℕ → K × K) (k : ℕ) : Bool :=
  ((start.before input k).process (input k).1 (input k).2).2

/-- The offset of the best expected beat in the score of call `k`. -/
def offsetAt (start : BeatTracker K) (input : ℕ → K × K) (k : ℕ) : ℕ :=
  ((start.before input k).advanced (input k).1 (input k).2).bestBeat

section Runs

variable {start : BeatTracker K} {input : ℕ → K × K}

theorem before_succ (k : ℕ) :
    start.before input (k + 1) =
      ((start.before input k).process (input k).1 (input k).2).1 := stateAt_succ _ _ _ _

theorem prediction_counts_down {k : ℕ}
    (later : 1 < (start.before input k).timeToNextPrediction) :
    (start.before input (k + 1)).timeToNextPrediction =
      (start.before input k).timeToNextPrediction - 1 := by
  rw [before_succ]
  rcases le_or_gt (start.before input k).timeToNextBeat 1 with due | waits
  · rw [process_due _ _ later due]
    rfl
  · rw [process_quiet _ _ later waits]
    rfl

variable [IsStrictOrderedRing K]

omit [FloorRing K] [Cmath K] in
theorem usedPeriod_mem (period : K) :
    10.0 ≤ usedPeriod period ∧ usedPeriod period ≤ (kBufferSize : K) * 0.5 :=
  clamp_mem (by norm_num [kBufferSize])

omit [IsStrictOrderedRing K] [Cmath K] in
theorem roundAway_of_nonneg {x : K} (h : 0 ≤ x) : roundAway x = ⌊x + 0.5⌋ := if_pos h

omit [Cmath K] in
theorem roundAway_mono {x y : K} (nonneg : 0 ≤ x) (le : x ≤ y) : roundAway x ≤ roundAway y := by
  rw [roundAway_of_nonneg nonneg, roundAway_of_nonneg (nonneg.trans le)]
  exact Int.floor_mono (by linarith)

omit [Cmath K] in
theorem five_le_halfPeriod (period : K) : 5 ≤ halfPeriod period := by
  have long := (usedPeriod_mem period).1
  rw [halfPeriod, roundAway_of_nonneg (by linarith), Int.le_floor]
  push_cast
  linarith

omit [Cmath K] in
theorem halfPeriod_lt_roundAway (period : K) :
    halfPeriod period < roundAway (usedPeriod period) := by
  have long := (usedPeriod_mem period).1
  have split : usedPeriod period * 0.5 + 0.5 + 1 ≤ usedPeriod period + 0.5 := by linarith
  have floors := Int.floor_mono split
  rw [Int.floor_add_one] at floors
  rw [halfPeriod, roundAway_of_nonneg (by linarith), roundAway_of_nonneg (by linarith)]
  omega

theorem counts_before_beat {k : ℕ} (now : (start.before input k).timeToNextPrediction ≤ 1)
    {i : ℕ} (early : i < start.offsetAt input k) :
    (start.before input (k + 1 + i)).timeToNextBeat = (start.offsetAt input k : ℤ) - i ∧
      (start.before input (k + 1 + i)).timeToNextPrediction =
        (start.offsetAt input k : ℤ) + halfPeriod (input k).2 - i := by
  have half := five_le_halfPeriod (input k).2
  induction i with
  | zero =>
    have ahead : ¬ ((start.before input k).advanced (input k).1 (input k).2).bestBeat = 0 := by
      change ¬ start.offsetAt input k = 0
      omega
    rw [Nat.add_zero, before_succ, process_predicts _ _ now, if_neg ahead]
    refine ⟨?_, ?_⟩
    · change (start.offsetAt input k : ℤ) = _
      omega
    · change (start.offsetAt input k : ℤ) + halfPeriod (input k).2 = _
      omega
  | succ i ih =>
    obtain ⟨beat, prediction⟩ := ih (by omega)
    rw [← Nat.add_assoc, before_succ, process_quiet _ _ (by omega) (by omega)]
    refine ⟨?_, ?_⟩
    · change (start.before input (k + 1 + i)).timeToNextBeat - 1 = _
      omega
    · change (start.before input (k + 1 + i)).timeToNextPrediction - 1 = _
      omega

theorem silent_before_beat {k : ℕ} (now : (start.before input k).timeToNextPrediction ≤ 1)
    {i : ℕ} (early : i < start.offsetAt input k) : start.fires input (k + i) = false := by
  have half := five_le_halfPeriod (input k).2
  cases i with
  | zero =>
    have ahead : ¬ ((start.before input k).advanced (input k).1 (input k).2).bestBeat = 0 := by
      change ¬ start.offsetAt input k = 0
      omega
    rw [Nat.add_zero, fires, process_predicts _ _ now, if_neg ahead]
  | succ i =>
    obtain ⟨beat, prediction⟩ := counts_before_beat now (i := i) (by omega)
    have call : k + (i + 1) = k + 1 + i := by omega
    rw [call, fires, process_quiet _ _ (by omega) (by omega)]

theorem beat_at_offset {k : ℕ} (now : (start.before input k).timeToNextPrediction ≤ 1) :
    start.fires input (k + start.offsetAt input k) = true ∧
      (start.before input (k + start.offsetAt input k + 1)).timeToNextBeat =
        roundAway (usedPeriod (input (k + start.offsetAt input k)).2) ∧
      (start.before input (k + start.offsetAt input k + 1)).timeToNextPrediction =
        halfPeriod (input k).2 := by
  have half := five_le_halfPeriod (input k).2
  cases offset : start.offsetAt input k with
  | zero =>
    have here : ((start.before input k).advanced (input k).1 (input k).2).bestBeat = 0 := offset
    rw [Nat.add_zero, fires, before_succ, process_predicts _ _ now, if_pos here]
    refine ⟨rfl, rfl, ?_⟩
    change (start.offsetAt input k : ℤ) + halfPeriod (input k).2 = _
    omega
  | succ i =>
    obtain ⟨beat, prediction⟩ := counts_before_beat now (i := i) (by omega)
    rw [offset] at beat prediction
    have call : k + (i + 1) = k + 1 + i := by omega
    rw [call, fires, before_succ, process_due _ _ (by omega) (by omega)]
    refine ⟨rfl, rfl, ?_⟩
    change (start.before input (k + 1 + i)).timeToNextPrediction - 1 = _
    omega

theorem not_due_after_beat {k next : ℕ} (now : (start.before input k).timeToNextPrediction ≤ 1)
    (behind : next = k + start.offsetAt input k + 1) :
    ¬ (start.before input next).Due (input next).1 (input next).2 := by
  subst behind
  obtain ⟨-, beat, prediction⟩ := beat_at_offset now
  have half := five_le_halfPeriod (input k).2
  have half' := five_le_halfPeriod (input (k + start.offsetAt input k)).2
  have outlasts := halfPeriod_lt_roundAway (input (k + start.offsetAt input k)).2
  unfold Due
  rw [if_neg (by omega)]
  omega

omit [IsStrictOrderedRing K] in
theorem exists_prediction (start : BeatTracker K) (input : ℕ → K × K) (k : ℕ) :
    ∃ i, (start.before input (k + i)).timeToNextPrediction ≤ 1 := by
  by_contra never
  have running : ∀ i, 1 < (start.before input (k + i)).timeToNextPrediction := fun i =>
    not_le.mp fun now => never ⟨i, now⟩
  have counted : ∀ i : ℕ, (start.before input (k + i)).timeToNextPrediction =
      (start.before input k).timeToNextPrediction - i := by
    intro i
    induction i with
    | zero => exact (sub_zero _).symm
    | succ i ih =>
      have down := prediction_counts_down (running i)
      rw [Nat.add_assoc] at down
      rw [down, ih]
      omega
  have positive := running 0
  have last := running (start.before input k).timeToNextPrediction.toNat
  rw [counted] at positive last
  omega

/-! ### Periods that stay close together -/

/-- No half period outlasts the placeholder that a beat leaves. -/
def Steered (input : ℕ → K × K) : Prop :=
  ∀ k k', halfPeriod (input k).2 ≤ roundAway (usedPeriod (input k').2)

section Steered

variable (steered : Steered input)

include steered

theorem counts_after_beat {k : ℕ} (now : (start.before input k).timeToNextPrediction ≤ 1) {i : ℕ}
    (early : (i : ℤ) < halfPeriod (input k).2) :
    (start.before input (k + start.offsetAt input k + 1 + i)).timeToNextBeat =
        roundAway (usedPeriod (input (k + start.offsetAt input k)).2) - i ∧
      (start.before input (k + start.offsetAt input k + 1 + i)).timeToNextPrediction =
        halfPeriod (input k).2 - i := by
  have outlasts := steered k (k + start.offsetAt input k)
  induction i with
  | zero =>
    obtain ⟨-, beat, prediction⟩ := beat_at_offset now
    rw [Nat.add_zero, beat, prediction]
    exact ⟨(sub_zero _).symm, (sub_zero _).symm⟩
  | succ i ih =>
    obtain ⟨beat, prediction⟩ := ih (by omega)
    rw [← Nat.add_assoc, before_succ, process_quiet _ _ (by omega) (by omega)]
    refine ⟨?_, ?_⟩
    · change (start.before input _).timeToNextBeat - 1 = _
      omega
    · change (start.before input _).timeToNextPrediction - 1 = _
      omega

theorem silent_after_beat {k : ℕ} (now : (start.before input k).timeToNextPrediction ≤ 1) {i : ℕ}
    (early : (i : ℤ) + 1 < halfPeriod (input k).2) :
    start.fires input (k + start.offsetAt input k + 1 + i) = false := by
  have outlasts := steered k (k + start.offsetAt input k)
  obtain ⟨beat, prediction⟩ := counts_after_beat steered now (i := i) (by omega)
  rw [fires, process_quiet _ _ (by omega) (by omega)]

end Steered

end Runs

/-! ### The schedule of a fresh tracker -/

section Schedule

variable (input : ℕ → K × K)

/-- The call that predicts for the `j`-th time; a fresh tracker predicts in its tenth call. -/
def predictionAt : ℕ → ℕ
  | 0 => 9
  | j + 1 =>
    predictionAt j + initial.offsetAt input (predictionAt j) +
      (halfPeriod (input (predictionAt j)).2).toNat

/-- The call that returns the beat of the `j`-th prediction. -/
def predictedBeat (j : ℕ) : ℕ :=
  predictionAt input j + initial.offsetAt input (predictionAt input j)

theorem predictionAt_succ (j : ℕ) :
    predictionAt input (j + 1) =
      predictedBeat input j + (halfPeriod (input (predictionAt input j)).2).toNat := rfl

theorem initial_counts_down {k : ℕ} (early : k ≤ 9) :
    ((initial : BeatTracker K).before input k).timeToNextPrediction = 10 - (k : ℤ) := by
  induction k with
  | zero => rfl
  | succ k ih =>
    have now := ih (by omega)
    rw [prediction_counts_down (by omega), now]
    omega

section Order

variable [IsStrictOrderedRing K]

omit [IsStrictOrderedRing K] in
theorem predictionAt_le_predictedBeat (j : ℕ) :
    predictionAt input j ≤ predictedBeat input j := Nat.le_add_right _ _

theorem predictedBeat_lt (j : ℕ) : predictedBeat input j < predictionAt input (j + 1) := by
  have half := five_le_halfPeriod (input (predictionAt input j)).2
  rw [predictionAt_succ]
  omega

theorem predictionAt_strictMono : StrictMono (predictionAt input) :=
  strictMono_nat_of_lt_succ fun j =>
    (predictionAt_le_predictedBeat input j).trans_lt (predictedBeat_lt input j)

theorem predictedBeat_strictMono : StrictMono (predictedBeat input) :=
  strictMono_nat_of_lt_succ fun j =>
    (predictedBeat_lt input j).trans_le (predictionAt_le_predictedBeat input (j + 1))

end Order

variable {input} [IsStrictOrderedRing K] (steered : Steered input)

include steered

theorem predicts_at (j : ℕ) :
    ((initial : BeatTracker K).before input (predictionAt input j)).timeToNextPrediction ≤ 1 := by
  induction j with
  | zero =>
    have counted := initial_counts_down input (k := 9) le_rfl
    rw [predictionAt, counted]
    omega
  | succ j ih =>
    have half := five_le_halfPeriod (input (predictionAt input j)).2
    have call : predictionAt input (j + 1) =
        predictionAt input j + initial.offsetAt input (predictionAt input j) + 1 +
          ((halfPeriod (input (predictionAt input j)).2).toNat - 1) := by
      rw [predictionAt]
      omega
    have counted := (counts_after_beat steered ih
      (i := (halfPeriod (input (predictionAt input j)).2).toNat - 1) (by omega)).2
    rw [call, counted]
    omega

omit steered in
theorem between_predictions (input : ℕ → K × K) {k : ℕ} (late : 9 ≤ k) :
    ∃ j, predictionAt input j ≤ k ∧ k < predictionAt input (j + 1) := by
  induction k, late using Nat.le_induction with
  | base =>
    have half := five_le_halfPeriod (input (predictionAt input 0)).2
    refine ⟨0, le_rfl, ?_⟩
    rw [predictionAt_succ, predictedBeat]
    change 9 < 9 + _ + _
    omega
  | succ k late ih =>
    obtain ⟨j, reached, next⟩ := ih
    rcases Nat.lt_or_ge (k + 1) (predictionAt input (j + 1)) with inside | passed
    · exact ⟨j, by omega, inside⟩
    · have half := five_le_halfPeriod (input (predictionAt input (j + 1))).2
      refine ⟨j + 1, passed, ?_⟩
      rw [predictionAt_succ, predictedBeat]
      omega

theorem fires_iff {k : ℕ} (late : 9 ≤ k) :
    (initial : BeatTracker K).fires input k = true ↔ ∃ j, predictedBeat input j = k := by
  constructor
  · intro fired
    obtain ⟨j, reached, next⟩ := between_predictions input late
    have now := predicts_at steered j
    refine ⟨j, ?_⟩
    by_contra elsewhere
    have quiet : (initial : BeatTracker K).fires input k = false := by
      rcases Nat.lt_or_ge k (predictedBeat input j) with early | passed
      · obtain ⟨i, rfl⟩ := Nat.exists_eq_add_of_le reached
        exact silent_before_beat now (Nat.lt_of_add_lt_add_left early)
      · obtain ⟨i, rfl⟩ := Nat.exists_eq_add_of_le (Nat.lt_of_le_of_ne passed elsewhere)
        rw [predictionAt_succ] at next
        exact silent_after_beat steered now (by omega)
    rw [quiet] at fired
    cases fired
  · rintro ⟨j, rfl⟩
    exact (beat_at_offset (predicts_at steered j)).1

end Schedule

/-! ### A constant period -/

/-- Calls that all track the same period. -/
def steady (odf : ℕ → K) (period : K) (k : ℕ) : K × K := (odf k, period)

section Steady

variable (odf : ℕ → K) (period : K)

/-- The offset that the `j`-th prediction finds. -/
def offset (j : ℕ) : ℕ :=
  initial.offsetAt (steady odf period) (predictionAt (steady odf period) j)

theorem predictedBeat_steady_succ (j : ℕ) :
    predictedBeat (steady odf period) (j + 1) = predictedBeat (steady odf period) j +
      (halfPeriod period).toNat + offset odf period (j + 1) := rfl

variable [IsStrictOrderedRing K]

omit [Cmath K] in
theorem steered_steady : Steered (steady odf period) := fun _ _ =>
  (halfPeriod_lt_roundAway period).le

/-- Beats from the first prediction on are at most three to a window of `w` calls exactly when
any three offsets in a row fill it together with three half periods. -/
theorem three_to_window_iff (w : ℕ) :
    (∀ a, 9 ≤ a → countIn (fun k => initial.fires (steady odf period) k = true) a w ≤ 3) ↔
      ∀ j, w ≤ 3 * (halfPeriod period).toNat + offset odf period (j + 1) +
        offset odf period (j + 2) + offset odf period (j + 3) := by
  have begins : 9 ≤ predictedBeat (steady odf period) 0 := Nat.le_add_right 9 _
  have events : ∀ k, 9 ≤ k → (initial.fires (steady odf period) k = true ↔
      ∃ j, predictedBeat (steady odf period) j = k) :=
    fun k late => fires_iff (steered_steady odf period) late
  rw [countIn_le_iff (predictedBeat_strictMono _) begins events]
  apply forall_congr'
  intro j
  have gap₁ := predictedBeat_steady_succ odf period j
  have gap₂ := predictedBeat_steady_succ odf period (j + 1)
  have gap₃ := predictedBeat_steady_succ odf period (j + 2)
  have next : j + 1 + 1 = j + 2 := rfl
  have third : j + 2 + 1 = j + 3 := rfl
  rw [next] at gap₂
  rw [third] at gap₃
  omega

end Steady

end Listeningway.Dsp.BeatTracker
