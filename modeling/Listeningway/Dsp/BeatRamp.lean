/- Listeningway/Dsp/BeatRamp
   source: src/audio/dsp/beat/beat_tracker.cpp; src/audio/dsp/beat/beat_tracker.h
   digest: When the beat phase climbs from every beat to the next, and an onset that wraps it. -/

import Listeningway.Dsp.BeatGaps
import Listeningway.Dsp.FlashRate
import Mathlib.Analysis.Complex.ExponentialBounds

/-!
The phase is the fraction of a counter over the period. It falls back at the first call that is
a period or more behind its beat, so it climbs up to the next beat exactly when that one comes
in time: the projection has to peak before the period is used up.
-/

set_option autoImplicit false
set_option relaxedAutoImplicit false

namespace Listeningway.Dsp.BeatTracker

open Listeningway.Lib
open Listeningway.Lib.Clamp
open Listeningway.Lib.FoldMax

/-! ### The phase as a function of the counter -/

/-- The phase that a counter of `d` gives. -/
noncomputable def phaseAt (P : ℝ) (d : ℕ) : ℝ :=
  clamp ((d : ℝ) / P - floorPart ((d : ℝ) / P)) 0 0.999999

section PhaseAt

variable {P : ℝ} {d : ℕ}

theorem phaseAt_zero (P : ℝ) : phaseAt P 0 = 0 := by
  norm_num [phaseAt, floorPart, clamp]

theorem phaseAt_of_lt (positive : 0 < P) (inside : d < P) :
    phaseAt P d = min ((d : ℝ) / P) 0.999999 := by
  have nonneg : 0 ≤ (d : ℝ) / P := div_nonneg (Nat.cast_nonneg d) positive.le
  have floor : ⌊(d : ℝ) / P⌋ = 0 :=
    Int.floor_eq_zero_iff.mpr ⟨nonneg, (div_lt_one positive).mpr inside⟩
  rw [phaseAt, floorPart, floor, Int.cast_zero, sub_zero]
  unfold clamp
  rcases le_or_gt ((d : ℝ) / P) 0.999999 with low | high
  · rw [if_neg nonneg.not_gt, if_neg low.not_gt, min_eq_left low]
  · rw [if_neg nonneg.not_gt, if_pos high, min_eq_right high.le]

theorem phaseAt_lt_succ (positive : 0 < P) (short : P ≤ 256) (inside : (d : ℝ) + 1 < P) :
    phaseAt P d < phaseAt P (d + 1) := by
  have next : ((d + 1 : ℕ) : ℝ) < P := by exact_mod_cast inside
  have here : (d : ℝ) < P := by linarith
  have low : (d : ℝ) / P < 0.999999 := by
    rw [div_lt_iff₀ positive]
    linarith
  rw [phaseAt_of_lt positive next, phaseAt_of_lt positive here, min_eq_left low.le]
  apply lt_min _ low
  apply div_lt_div_of_pos_right _ positive
  exact_mod_cast Nat.lt_succ_self d

theorem phaseAt_wraps (long : 10 ≤ P) (inside : (d : ℝ) < P) (completes : P ≤ (d : ℝ) + 1) :
    phaseAt P (d + 1) < phaseAt P d := by
  have positive : 0 < P := by linarith
  have low : 1 ≤ ((d + 1 : ℕ) : ℝ) / P := by
    rw [le_div_iff₀ positive]
    push_cast
    linarith
  have high : ((d + 1 : ℕ) : ℝ) / P ≤ 1.1 := by
    rw [div_le_iff₀ positive]
    push_cast
    linarith
  have floor : ⌊((d + 1 : ℕ) : ℝ) / P⌋ = 1 := by
    rw [Int.floor_eq_iff, Int.cast_one]
    constructor <;> linarith
  have fallen : phaseAt P (d + 1) ≤ 0.1 := by
    rw [phaseAt, floorPart, floor, Int.cast_one, clamp_le_iff (by norm_num)]
    right
    linarith
  have climbed : 0.9 ≤ (d : ℝ) / P := by
    rw [le_div_iff₀ positive]
    linarith
  rw [phaseAt_of_lt positive inside]
  exact fallen.trans_lt (lt_min (by linarith) (by norm_num))

end PhaseAt

/-! ### The counter behind a beat -/

section Counter

variable (st : BeatTracker ℝ) (odf period : ℝ)

theorem beatPhaseCounter_process :
    (st.process odf period).1.beatPhaseCounter =
      if (st.process odf period).2 = true then 0 else st.beatPhaseCounter + 1 := by
  rw [process_eq]
  dsimp only
  split_ifs <;> first | rfl | contradiction

theorem beatPeriod_process : (st.process odf period).1.beatPeriod = usedPeriod period := by
  rw [process_eq]
  dsimp only
  split_ifs <;> rfl

end Counter

section Ramps

variable (input : ℕ → ℝ × ℝ)

/-- Every beat takes the phase to 0, from which it climbs until the next beat falls. -/
def RampsPerBeat : Prop :=
  ∀ b, initial.fires input b = true →
    (initial.before input (b + 1)).beatPhase = 0 ∧
      ∀ i, b ≤ i → (∀ l, b < l → l ≤ i + 1 → initial.fires input l = false) →
        (initial.before input (i + 1)).beatPhase < (initial.before input (i + 2)).beatPhase

variable {input} {b d : ℕ}

theorem counter_behind (fired : initial.fires input b = true)
    (silent : ∀ l, b < l → l ≤ b + d → initial.fires input l = false) :
    (initial.before input (b + 1 + d)).beatPhaseCounter = d := by
  induction d with
  | zero =>
    rw [Nat.add_zero, before_succ, beatPhaseCounter_process]
    exact if_pos fired
  | succ d ih =>
    have counted := ih fun l after inside => silent l after (by omega)
    have quiet : initial.fires input (b + 1 + d) = false := silent _ (by omega) (by omega)
    have waits : ¬ ((initial.before input (b + 1 + d)).process (input (b + 1 + d)).1
        (input (b + 1 + d)).2).2 = true := by
      change ¬ initial.fires input (b + 1 + d) = true
      rw [quiet]
      exact Bool.false_ne_true
    rw [← Nat.add_assoc, before_succ, beatPhaseCounter_process, if_neg waits, counted]
    push_cast
    rfl

end Ramps

section Steady

variable {odf : ℕ → ℝ} {P : ℝ} (range : P ∈ Set.Icc (10 : ℝ) 256)

include range

theorem usedPeriod_of_mem : usedPeriod P = P :=
  usedPeriod_of_usable ⟨by linarith [range.1], by linarith [range.2]⟩

theorem phase_behind {b d : ℕ} (fired : initial.fires (steady odf P) b = true)
    (silent : ∀ l, b < l → l ≤ b + d → initial.fires (steady odf P) l = false) :
    (initial.before (steady odf P) (b + 1 + d)).beatPhase = phaseAt P d := by
  have period : (initial.before (steady odf P) (b + 1 + d)).beatPeriod = P := by
    rw [Nat.add_right_comm, before_succ, beatPeriod_process]
    exact usedPeriod_of_mem range
  rw [beatPhase, period, counter_behind fired silent, Int.cast_natCast,
    if_neg (by linarith [range.1])]
  rfl

theorem not_ramps_of_completed {b d : ℕ} (fired : initial.fires (steady odf P) b = true)
    (silent : ∀ l, b < l → l ≤ b + d → initial.fires (steady odf P) l = false)
    (completed : P ≤ d) : ¬ RampsPerBeat (steady odf P) := by
  intro ramps
  -- the first call that completes the period
  have reached : ∃ e : ℕ, P ≤ e := ⟨d, completed⟩
  have completes := Nat.find_spec reached
  have first : Nat.find reached ≤ d := Nat.find_min' reached completed
  obtain ⟨e, last⟩ : ∃ e, Nat.find reached = e + 1 := by
    apply Nat.exists_eq_succ_of_ne_zero
    intro zero
    rw [zero, Nat.cast_zero] at completes
    linarith [range.1]
  have before_it : (e : ℝ) < P := not_le.mp (Nat.find_min reached (by omega))
  rw [last] at completes first
  have climbs := (ramps b fired).2 (b + e) (Nat.le_add_right b e) fun l after inside =>
    silent l after (by omega)
  have here := phase_behind range (d := e) fired fun l after inside => silent l after (by omega)
  have next := phase_behind range (d := e + 1) fired fun l after inside =>
    silent l after (by omega)
  have call : b + 1 + (e + 1) = b + e + 2 := by omega
  rw [Nat.add_right_comm] at here
  rw [call] at next
  rw [here, next] at climbs
  exact lt_asymm climbs (phaseAt_wraps range.1 before_it (by exact_mod_cast completes))

theorem ramps_iff_short :
    RampsPerBeat (steady odf P) ↔
      ∀ b d : ℕ, initial.fires (steady odf P) b = true →
        (∀ l, b < l → l ≤ b + d → initial.fires (steady odf P) l = false) → (d : ℝ) < P := by
  constructor
  · intro ramps b d fired silent
    by_contra late
    exact not_ramps_of_completed range fired silent (not_lt.mp late) ramps
  · intro short b fired
    constructor
    · have begun := phase_behind range (d := 0) fired fun l after inside => by omega
      rw [Nat.add_zero, phaseAt_zero] at begun
      exact begun
    · intro i reached silent
      obtain ⟨d, rfl⟩ := Nat.exists_eq_add_of_le reached
      have inside := short b (d + 1) fired fun l after upto => silent l after (by omega)
      have here := phase_behind range (d := d) fired fun l after upto =>
        silent l after (by omega)
      have next := phase_behind range (d := d + 1) fired fun l after upto =>
        silent l after (by omega)
      have call : b + 1 + (d + 1) = b + d + 2 := by omega
      rw [Nat.add_right_comm] at here
      rw [call] at next
      rw [here, next]
      exact phaseAt_lt_succ (by linarith [range.1]) range.2 (by exact_mod_cast inside)

end Steady

/-! ### The stretches between beats -/

section Stretches

variable (odf : ℕ → ℝ) (P : ℝ)

theorem first_call_fires : initial.fires (steady odf P) 0 = true := by
  have beat : (initial.before (steady odf P) 0).timeToNextBeat = -1 := rfl
  have prediction := initial_counts_down (steady odf P) (k := 0) (by omega)
  rw [fires, process_due _ _ (by omega) (by omega)]

theorem silent_before_prediction {k : ℕ} (after : 0 < k) (early : k < 9) :
    initial.fires (steady odf P) k = false := by
  obtain ⟨i, rfl⟩ := Nat.exists_eq_add_of_lt after
  have long := ten_le_roundAway (steady odf P 0).2
  have waits := initial_placeholder (steady odf P) (i := i) (by omega)
  have prediction := initial_counts_down (steady odf P) (k := i + 1) (by omega)
  rw [Nat.zero_add, fires, process_quiet _ _ (by omega) (by omega)]

theorem silent_before_first_beat {k : ℕ} (after : 0 < k)
    (ahead : k < predictedBeat (steady odf P) 0) :
    initial.fires (steady odf P) k = false := by
  rcases Nat.lt_or_ge k 9 with early | late
  · exact silent_before_prediction odf P after early
  · by_contra fired
    rw [Bool.not_eq_false, fires_iff (steered_steady odf P) late] at fired
    obtain ⟨j, rfl⟩ := fired
    exact absurd ((predictedBeat_strictMono (steady odf P)).monotone (Nat.zero_le j)) (by omega)

theorem silent_between_beats {j k : ℕ} (after : predictedBeat (steady odf P) j < k)
    (ahead : k < predictedBeat (steady odf P) (j + 1)) :
    initial.fires (steady odf P) k = false := by
  have late : 9 ≤ k := by
    have first := (predictedBeat_strictMono (steady odf P)).monotone (Nat.zero_le j)
    have begins : 9 ≤ predictedBeat (steady odf P) 0 := Nat.le_add_right 9 _
    omega
  by_contra fired
  rw [Bool.not_eq_false, fires_iff (steered_steady odf P) late] at fired
  obtain ⟨j', rfl⟩ := fired
  have lower := (predictedBeat_strictMono (steady odf P)).lt_iff_lt.mp after
  have upper := (predictedBeat_strictMono (steady odf P)).lt_iff_lt.mp ahead
  omega

theorem predictedBeat_fires (j : ℕ) :
    initial.fires (steady odf P) (predictedBeat (steady odf P) j) = true := by
  have late : 9 ≤ predictedBeat (steady odf P) j :=
    (Nat.le_add_right 9 _).trans
      ((predictedBeat_strictMono (steady odf P)).monotone (Nat.zero_le j))
  rw [fires_iff (steered_steady odf P) late]
  exact ⟨j, rfl⟩

theorem silent_behind_start_iff (d : ℕ) :
    (∀ l, 0 < l → l ≤ 0 + d → initial.fires (steady odf P) l = false) ↔
      d ≤ 8 + offset odf P 0 := by
  have begins : predictedBeat (steady odf P) 0 = 9 + offset odf P 0 := rfl
  constructor
  · intro silent
    by_contra reached
    have quiet := silent (predictedBeat (steady odf P) 0) (by omega) (by omega)
    rw [predictedBeat_fires] at quiet
    cases quiet
  · intro early l after inside
    exact silent_before_first_beat odf P after (by omega)

theorem silent_behind_beat_iff (j d : ℕ) :
    (∀ l, predictedBeat (steady odf P) j < l → l ≤ predictedBeat (steady odf P) j + d →
        initial.fires (steady odf P) l = false) ↔
      d < (halfPeriod P).toNat + offset odf P (j + 1) := by
  have half := five_le_halfPeriod P
  have gap := predictedBeat_steady_succ odf P j
  constructor
  · intro silent
    by_contra reached
    have quiet := silent (predictedBeat (steady odf P) (j + 1)) (by omega) (by omega)
    rw [predictedBeat_fires] at quiet
    cases quiet
  · intro early l after inside
    exact silent_between_beats odf P after (by omega)

theorem fires_cases {b : ℕ} (fired : initial.fires (steady odf P) b = true) :
    b = 0 ∨ ∃ j, predictedBeat (steady odf P) j = b := by
  rcases Nat.eq_zero_or_pos b with start | after
  · exact .inl start
  · have late : 9 ≤ b := by
      by_contra early
      rw [silent_before_prediction odf P after (by omega)] at fired
      cases fired
    obtain ⟨j, call⟩ := (fires_iff (steered_steady odf P) late).mp fired
    exact .inr ⟨j, call⟩

theorem short_iff_offsets :
    (∀ b d : ℕ, initial.fires (steady odf P) b = true →
        (∀ l, b < l → l ≤ b + d → initial.fires (steady odf P) l = false) → (d : ℝ) < P) ↔
      (offset odf P 0 : ℝ) < P - 8 ∧
        ∀ j, (offset odf P (j + 1) : ℝ) < P + 1 - halfPeriod P := by
  have half := five_le_halfPeriod P
  have halfCast : ((halfPeriod P).toNat : ℝ) = halfPeriod P := by
    exact_mod_cast Int.toNat_of_nonneg (by omega)
  constructor
  · intro short
    constructor
    · have room := short 0 (8 + offset odf P 0) (first_call_fires odf P)
        ((silent_behind_start_iff odf P _).mpr le_rfl)
      push_cast at room
      linarith
    · intro j
      have room := short (predictedBeat (steady odf P) j)
        ((halfPeriod P).toNat - 1 + offset odf P (j + 1)) (predictedBeat_fires odf P j)
        ((silent_behind_beat_iff odf P j _).mpr (by omega))
      rw [Nat.cast_add, Nat.cast_sub (by omega), halfCast, Nat.cast_one] at room
      linarith
  · rintro ⟨room, rooms⟩ b d fired silent
    rcases fires_cases odf P fired with rfl | ⟨j, rfl⟩
    · have early := (silent_behind_start_iff odf P d).mp silent
      have close : (d : ℝ) ≤ 8 + offset odf P 0 := by exact_mod_cast early
      linarith
    · have early := (silent_behind_beat_iff odf P j d).mp silent
      have close : (d : ℝ) + 1 ≤ (halfPeriod P).toNat + offset odf P (j + 1) := by
        exact_mod_cast early
      have inside := rooms j
      linarith

end Stretches

/-! ### Where the projection peaks -/

/-- What a prediction compares at offset `i`: the projected score times the expectation. -/
noncomputable def expectedScore (st : BeatTracker ℝ) (i : ℕ) : ℝ :=
  st.futureCs.getD (kBufferSize + i) 0 * beatExpectation st.beatPeriod i

/-- Whatever the projection expects at `room` or later, it expects as much before. -/
def PeaksWithin (st : BeatTracker ℝ) (room : ℝ) : Prop :=
  ∀ i < beatWindow st.beatPeriod, room ≤ i → 0 < st.expectedScore i →
    ∃ i' : ℕ, (i' : ℝ) < room ∧ st.expectedScore i ≤ st.expectedScore i'

theorem bestBeat_lt_iff {st : BeatTracker ℝ} {room : ℝ} (positive : 0 < room) :
    (st.bestBeat : ℝ) < room ↔ st.PeaksWithin room := by
  rw [← Nat.lt_ceil]
  refine (foldl_place_lt_iff (v := st.expectedScore) (Nat.ceil_pos.mpr positive)).trans ?_
  simp only [PeaksWithin, Nat.ceil_le, Nat.lt_ceil]

theorem ramps_iff_offsets (odf : ℕ → ℝ) {P : ℝ} (range : P ∈ Set.Icc (10 : ℝ) 256) :
    RampsPerBeat (steady odf P) ↔
      (offset odf P 0 : ℝ) < P - 8 ∧
        ∀ j, (offset odf P (j + 1) : ℝ) < P + 1 - halfPeriod P := by
  rw [ramps_iff_short range, short_iff_offsets]

/-! ### An onset at the call that predicts -/

/-- Nine calls of silence, then one onset. -/
noncomputable def lateOnset (k : ℕ) : ℝ := if k = 9 then 10.0 else 0

/-- The tracker at its first prediction, with the onset in its newest sample. -/
noncomputable def struck : BeatTracker ℝ := (silent 9).advanced 10.0 10.5

theorem before_lateOnset : initial.before (steady lateOnset 10.5) 9 = silent 9 := by
  apply StreamRun.stateAt_congr
  intro k early
  exact congrArg (fun odf => (odf, (10.5 : ℝ))) (if_neg (by omega))

theorem offset_lateOnset : offset lateOnset 10.5 0 = struck.bestBeat := by
  have onset : lateOnset 9 = 10.0 := if_pos rfl
  change ((initial.before (steady lateOnset 10.5) 9).advanced (lateOnset 9) 10.5).bestBeat = _
  rw [before_lateOnset, onset]
  rfl

theorem age_struck_zero : 1 ≤ struck.age 0 := by
  have newest : struck.age 0 = (silent 9).newCs (|(10.0 : ℝ)| + 1e-4) (usedPeriod 10.5) := by
    rw [age, struck, scoreRing_advanced, HistoryRing.ago_push_zero]
  have momentum : 0 ≤ weightedMaxInWindow (silent 9).linear (windowStart (usedPeriod (10.5 : ℝ)))
      (windowEnd (usedPeriod (10.5 : ℝ)))
      (logGaussianWindow (windowSize (usedPeriod (10.5 : ℝ))) (usedPeriod 10.5)) :=
    init_le_foldl_max _ 0
  have alpha : (kAlpha : ℝ) = 0.9 := rfl
  rw [newest, newCs, abs_of_pos (by norm_num), alpha]
  linarith

theorem age_struck_succ {j : ℕ} (inside : j + 1 < 512) : struck.age (j + 1) ≤ 1e-4 := by
  have below := pull_le_one 11
  have level : silentLevel ≤ 1e-4 := by
    unfold silentLevel kAlpha
    rw [div_le_iff₀ (by linarith)]
    linarith
  have older : struck.age (j + 1) = (silent 9).age j := by
    rw [age, struck, scoreRing_advanced]
    exact HistoryRing.ago_push_succ _ _ inside
  rw [older]
  exact (age_silent_mem 9 (by omega)).2.trans level

theorem expectedScore_struck {i : ℕ} (inside : i < 11) :
    struck.expectedScore i =
      strongest (struck.projected i) i * beatExpectation (10.5 : ℝ) i := by
  have period : struck.beatPeriod = 10.5 := usedPeriod_eq
  have place : kBufferSize + i = 512 + i := rfl
  rw [expectedScore, futureCs_eq period, period, place,
    getD_projected_new struck inside (by decide)]

theorem expectedScore_early {i : ℕ} (early : i < 4) : struck.expectedScore i ≤ 1e-4 := by
  have quiet : strongest (struck.projected i) i ≤ pull 11 * 1e-4 := by
    apply strongest_le (by norm_num)
    intro w inside
    rw [getD_projected_past struck i (by omega)]
    obtain ⟨j, older⟩ : ∃ j, 511 - (491 + i + w) = j + 1 :=
      Nat.exists_eq_succ_of_ne_zero (by omega)
    rw [older]
    exact age_struck_succ (by omega)
  have small := pull_le_one 11
  have expectation : beatExpectation (10.5 : ℝ) i ≤ 1 := by
    apply Real.exp_le_one_iff.mpr
    apply div_nonpos_of_nonpos_of_nonneg
    · rw [neg_nonpos]
      exact mul_self_nonneg _
    · norm_num
  have positive : 0 < beatExpectation (10.5 : ℝ) i := Real.exp_pos _
  rw [expectedScore_struck (by omega)]
  calc strongest (struck.projected i) i * beatExpectation (10.5 : ℝ) i
      ≤ 1e-4 * beatExpectation (10.5 : ℝ) i :=
        mul_le_mul_of_nonneg_right (by linarith) positive.le
    _ ≤ 1e-4 := mul_le_of_le_one_right (by norm_num) expectation

theorem pull_five : 1.5e-4 ≤ pull 5 := by
  have near : Real.log 2.1 ≤ 0.8 := by
    rw [Real.log_le_iff_le_exp (by norm_num)]
    exact le_trans (by norm_num) (Real.quadratic_le_exp_of_nonneg (by norm_num))
  have far : 0 ≤ Real.log 2.1 := Real.log_nonneg (by norm_num)
  have inverse : Real.log ((5 : ℕ) / 10.5) = -Real.log 2.1 := by
    rw [← Real.log_inv]
    norm_num
  have square : Real.log 2.1 ^ 2 ≤ 0.8 ^ 2 := pow_le_pow_left₀ far near 2
  have eight : Real.exp 8 ≤ 3 ^ 8 := by
    have power : Real.exp 8 = Real.exp 1 ^ 8 := by
      rw [← Real.exp_nat_mul]
      norm_num
    rw [power]
    exact pow_le_pow_left₀ (Real.exp_pos 1).le Real.exp_one_lt_three.le 8
  calc (1.5e-4 : ℝ) ≤ (3 ^ 8)⁻¹ := by norm_num
    _ ≤ (Real.exp 8)⁻¹ := inv_anti₀ (Real.exp_pos 8) eight
    _ = Real.exp (-8) := (Real.exp_neg 8).symm
    _ ≤ pull 5 := by
      apply Real.exp_le_exp.mpr
      rw [inverse]
      linarith

theorem expectedScore_four : 1e-4 < struck.expectedScore 4 := by
  have filled : 491 + 4 + 16 < (struck.projected 4).length := by
    rw [length_projected]
    decide
  have onset := pull_le_strongest (w := 16) (by decide) filled
  rw [getD_projected_past struck 4 (by decide)] at onset
  have newest := age_struck_zero
  have strong := pull_five
  have centre : 0.9 ≤ beatExpectation (10.5 : ℝ) 4 := by
    refine le_trans ?_ (Real.add_one_le_exp _)
    norm_num
  have taken : 1.5e-4 ≤ strongest (struck.projected 4) 4 := by
    refine le_trans ?_ onset
    calc (1.5e-4 : ℝ) ≤ pull 5 := strong
      _ ≤ pull 5 * struck.age 0 := le_mul_of_one_le_right (pull_pos 5).le newest
  rw [expectedScore_struck (by decide)]
  calc (1e-4 : ℝ) < 1.5e-4 * 0.9 := by norm_num
    _ ≤ strongest (struck.projected 4) 4 * beatExpectation (10.5 : ℝ) 4 :=
      mul_le_mul taken centre (by norm_num) ((by norm_num : (0 : ℝ) ≤ 1.5e-4).trans taken)

end Listeningway.Dsp.BeatTracker
