/- Listeningway/Dsp/FadingOnset
   source: src/audio/dsp/beat/beat_tracker.cpp; src/audio/dsp/beat/beat_tracker.h
   digest: Onsets that fade as their echo builds up keep every beat within the period. -/

import Listeningway.Dsp.BeatRamp

/-!
A sample of the score is the onset of its call and an echo of the samples half a period to two
periods back. Where the onsets lose what the echo of the first one gains, the score falls from
its first sample on, so the projection finds nothing that comes later to be stronger, and the
beat expectation has its peak half a period ahead.
-/

set_option autoImplicit false
set_option relaxedAutoImplicit false

namespace Listeningway.Dsp.BeatTracker

open Listeningway.Lib
open Listeningway.Lib.Clamp
open Listeningway.Lib.FoldMax

/-! ### The echo of a sample -/

/-- The lag at which the window weighs a sample `d` calls back; its start is rounded. -/
noncomputable def lag (P : ℝ) (d : ℕ) : ℝ := 2.0 * P - roundAway (2.0 * P) + d

/-- The weight of a sample `d` calls back. -/
noncomputable def echo (P : ℝ) (d : ℕ) : ℝ :=
  if roundAway (0.5 * P) ≤ d ∧ (d : ℤ) ≤ roundAway (2.0 * P) then w1 P (lag P d) else 0

theorem w1_eq (P x : ℝ) : w1 P x = Real.exp (-(12.5 * Real.log (x / P) ^ 2)) := by
  change Real.exp (-(kTightness * Real.log (x / P) * (kTightness * Real.log (x / P))) * 0.5) = _
  have tightness : (kTightness : ℝ) = 5 := by norm_num [kTightness]
  rw [tightness]
  congr 1
  ring

theorem echo_nonneg (P : ℝ) (d : ℕ) : 0 ≤ echo P d := by
  unfold echo
  split_ifs
  · exact (Real.exp_pos _).le
  · exact le_rfl

theorem echo_le_one (P : ℝ) (d : ℕ) : echo P d ≤ 1 := by
  unfold echo
  split_ifs
  · rw [w1_eq]
    exact Real.exp_le_one_iff.mpr (neg_nonpos.mpr (by positivity))
  · exact zero_le_one

theorem one_le_roundAway_half {P : ℝ} (usable : Usable P) : 1 ≤ roundAway (0.5 * P) := by
  rw [roundAway_of_nonneg (by linarith [usable.1]), Int.le_floor]
  push_cast
  linarith [usable.1]

theorem echo_zero {P : ℝ} (usable : Usable P) : echo P 0 = 0 := by
  have near := one_le_roundAway_half usable
  refine if_neg fun inside => ?_
  have first := inside.1
  push_cast at first
  omega

theorem roundAway_near {x : ℝ} (nonneg : 0 ≤ x) :
    x - 0.5 < roundAway x ∧ (roundAway x : ℝ) ≤ x + 0.5 := by
  rw [roundAway_of_nonneg nonneg]
  exact ⟨by linarith [Int.lt_floor_add_one (x + 0.5)], Int.floor_le _⟩

theorem echo_of_far {P : ℝ} (usable : Usable P) {d : ℕ} (far : 512 < d) : echo P d = 0 := by
  have bounds := window_bounds usable
  rw [windowStart_eq_sub] at bounds
  exact if_neg fun window => by omega

section Lag

variable {P : ℝ} (usable : Usable P)

include usable

theorem lag_mem (d : ℕ) : d - 0.5 ≤ lag P d ∧ lag P d < d + 0.5 := by
  obtain ⟨low, high⟩ := roundAway_near (x := 2.0 * P) (by linarith [usable.1])
  unfold lag
  constructor <;> linarith

theorem roundAway_half_le {d : ℕ} (past : P ≤ lag P d) : roundAway (0.5 * P) ≤ d := by
  have long := usable.1
  obtain ⟨-, half⟩ := roundAway_near (x := 0.5 * P) (by linarith)
  have behind := (lag_mem usable d).2
  have cast : ((roundAway (0.5 * P) : ℤ) : ℝ) ≤ ((d : ℤ) : ℝ) := by
    push_cast
    linarith
  exact_mod_cast cast

theorem echo_antitone {d d' : ℕ} (past : P ≤ lag P d) (later : d ≤ d') :
    echo P d' ≤ echo P d := by
  have long := usable.1
  by_cases inside : (d' : ℤ) ≤ roundAway (2.0 * P)
  · have near := roundAway_half_le usable past
    have further : lag P d ≤ lag P d' := by
      have cast : (d : ℝ) ≤ d' := by exact_mod_cast later
      unfold lag
      linarith
    have positive : 0 < P := by linarith
    have start : 0 ≤ Real.log (lag P d / P) := Real.log_nonneg ((one_le_div positive).mpr past)
    have step : Real.log (lag P d / P) ≤ Real.log (lag P d' / P) :=
      Real.log_le_log (div_pos (by linarith) positive)
        (div_le_div_of_nonneg_right further positive.le)
    unfold echo
    rw [if_pos ⟨by omega, inside⟩, if_pos ⟨near, by omega⟩, w1_eq, w1_eq]
    apply Real.exp_le_exp.mpr
    have squares := pow_le_pow_left₀ start step 2
    linarith
  · rw [echo, if_neg fun window => inside window.2]
    exact echo_nonneg P d

theorem echo_le_succ {d : ℕ} (short : lag P (d + 1) ≤ P) : echo P d ≤ echo P (d + 1) := by
  have long := usable.1
  have positive : 0 < P := by linarith
  by_cases window : roundAway (0.5 * P) ≤ d ∧ (d : ℤ) ≤ roundAway (2.0 * P)
  · have half := one_le_roundAway_half usable
    have inside : ((d + 1 : ℕ) : ℤ) ≤ roundAway (2.0 * P) := by
      have cast : (((d + 1 : ℕ) : ℤ) : ℝ) ≤ ((roundAway (2.0 * P) : ℤ) : ℝ) := by
        unfold lag at short
        push_cast at short ⊢
        linarith
      exact_mod_cast cast
    have ahead : 0 < lag P d := by
      have some : (1 : ℝ) ≤ d := by exact_mod_cast (by omega : 1 ≤ d)
      linarith [(lag_mem usable d).1]
    have nearer : lag P d ≤ lag P (d + 1) := by
      unfold lag
      push_cast
      linarith
    have step : Real.log (lag P d / P) ≤ Real.log (lag P (d + 1) / P) :=
      Real.log_le_log (div_pos ahead positive) (div_le_div_of_nonneg_right nearer positive.le)
    have last : Real.log (lag P (d + 1) / P) ≤ 0 :=
      Real.log_nonpos (div_nonneg (ahead.le.trans nearer) positive.le)
        ((div_le_one positive).mpr short)
    unfold echo
    rw [if_pos window, if_pos ⟨by omega, inside⟩, w1_eq, w1_eq]
    apply Real.exp_le_exp.mpr
    have squares := pow_le_pow_left₀ (neg_nonneg.mpr last) (neg_le_neg step) 2
    rw [neg_sq, neg_sq] at squares
    linarith
  · rw [echo, if_neg window]
    exact echo_nonneg P (d + 1)

theorem le_echo {d : ℕ} (long : 14 ≤ P) (past : P ≤ lag P d) (first : lag P d < P + 1) :
    0.93 ≤ echo P d := by
  have positive : 0 < P := by linarith
  have window : (d : ℤ) ≤ roundAway (2.0 * P) := by
    have cast : ((d : ℤ) : ℝ) ≤ ((roundAway (2.0 * P) : ℤ) : ℝ) := by
      unfold lag at first
      push_cast
      linarith
    exact_mod_cast cast
  have start : 0 ≤ Real.log (lag P d / P) := Real.log_nonneg ((one_le_div positive).mpr past)
  have small : Real.log (lag P d / P) ≤ 1 / 14 := by
    have above : lag P d / P ≤ 1 + 1 / 14 := by
      rw [div_le_iff₀ positive]
      linarith
    have log := Real.log_le_sub_one_of_pos (div_pos (by linarith : 0 < lag P d) positive)
    linarith
  have square : Real.log (lag P d / P) ^ 2 ≤ (1 / 14) ^ 2 := pow_le_pow_left₀ start small 2
  rw [echo, if_pos ⟨roundAway_half_le usable past, window⟩, w1_eq]
  refine le_trans ?_ (Real.add_one_le_exp _)
  norm_num at square ⊢
  linarith

theorem echo_le {d : ℕ} (short : lag P d ≤ P) :
    echo P d ≤ Real.exp (-(12.5 * (1 - lag P d / P) ^ 2)) := by
  have positive : 0 < P := by linarith [usable.1]
  unfold echo
  split_ifs with window
  · have half := one_le_roundAway_half usable
    have some : (1 : ℝ) ≤ d := by exact_mod_cast (by omega : 1 ≤ d)
    have ahead : 0 < lag P d / P := div_pos (by linarith [(lag_mem usable d).1]) positive
    have below : lag P d / P ≤ 1 := (div_le_one positive).mpr short
    have log := Real.log_le_sub_one_of_pos ahead
    have square : (1 - lag P d / P) ^ 2 ≤ Real.log (lag P d / P) ^ 2 :=
      sq_le_sq' (by linarith) (by linarith) |>.trans_eq (neg_sq _)
    rw [w1_eq]
    apply Real.exp_le_exp.mpr
    linarith
  · exact (Real.exp_pos _).le

end Lag

theorem beatExpectation_eq {P : ℝ} (positive : 0 < P) (i : ℕ) :
    beatExpectation P i = Real.exp (-(2 * (((i + 1 : ℕ) : ℝ) / P - 0.5) ^ 2)) := by
  have half : (0.5 : ℝ) = 1 / 2 := by norm_num
  rw [beatExpectation, two_eq, half]
  change Real.exp _ = Real.exp _
  congr 1
  field_simp

theorem echo_mul_beatExpectation_le {P : ℝ} (usable : Usable P) {d i : ℕ} (within : d ≤ i) :
    echo P d * beatExpectation P i ≤ 0.66 := by
  have positive : 0 < P := by linarith [usable.1]
  have bound : Real.exp (-0.43) ≤ 0.66 := by
    have series := Real.quadratic_le_exp_of_nonneg (x := 0.43) (by norm_num)
    rw [Real.exp_neg, inv_le_comm₀ (Real.exp_pos _) (by norm_num)]
    refine le_trans ?_ series
    norm_num
  have reach : lag P d / P ≤ ((i + 1 : ℕ) : ℝ) / P := by
    apply div_le_div_of_nonneg_right _ positive.le
    have cast : (d : ℝ) ≤ i := by exact_mod_cast within
    push_cast
    linarith [(lag_mem usable d).2]
  rw [beatExpectation_eq positive]
  refine le_trans ?_ bound
  rcases le_or_gt (lag P d) P with short | long
  · have below : lag P d / P ≤ 1 := (div_le_one positive).mpr short
    refine (mul_le_mul_of_nonneg_right (echo_le usable short) (Real.exp_pos _).le).trans ?_
    rw [← Real.exp_add]
    apply Real.exp_le_exp.mpr
    generalize lag P d / P = y at reach below ⊢
    generalize ((i + 1 : ℕ) : ℝ) / P = z at reach ⊢
    rcases le_or_gt y 0.5 with early | late
    · nlinarith [sq_nonneg (z - 0.5)]
    · have squares : (y - 0.5) ^ 2 ≤ (z - 0.5) ^ 2 :=
        pow_le_pow_left₀ (by linarith) (by linarith) 2
      nlinarith [sq_nonneg (29 * y - 27)]
  · have above : 1 < lag P d / P := (one_lt_div positive).mpr long
    refine (mul_le_of_le_one_left (Real.exp_pos _).le (echo_le_one P d)).trans ?_
    apply Real.exp_le_exp.mpr
    nlinarith

/-! ### The window by lags -/

section Window

variable {P : ℝ} (usable : Usable P) {source : List ℝ} {i : ℕ}

include usable

theorem weight_eq_echo {d w : ℕ} (place : (w : ℤ) + d = roundAway (2.0 * P))
    (inside : w < windowSize P) :
    (logGaussianWindow (windowSize P) P).getD w 0 = echo P d := by
  have size := windowSize_eq_sub usable
  rw [windowStart_eq_sub, windowEnd_eq_sub] at size
  have window : roundAway (0.5 * P) ≤ d ∧ (d : ℤ) ≤ roundAway (2.0 * P) := by omega
  have cast : (w : ℝ) = roundAway (2.0 * P) - d := by
    rw [eq_sub_iff_add_eq]
    exact_mod_cast place
  have ahead : (w : ℝ) < 2.0 * P := by
    obtain ⟨-, start⟩ := roundAway_near (x := 2.0 * P) (by linarith [usable.1])
    have some : (1 : ℝ) ≤ d := by
      have half := one_le_roundAway_half usable
      exact_mod_cast (by omega : 1 ≤ d)
    linarith
  rw [weight_getD_eq_w1 usable inside ahead, echo, if_pos window, lag, cast, sub_add]

theorem windowMax_le_of_echo {bound : ℝ} (nonneg : 0 ≤ bound)
    (each : ∀ j d : ℕ, j + d = 512 + i → source.getD j 0 * echo P d ≤ bound) :
    windowMax P source i ≤ bound := by
  have size := windowSize_eq_sub usable
  have bounds := window_bounds usable
  rw [windowStart_eq_sub, windowEnd_eq_sub] at size
  rw [windowStart_eq_sub, windowEnd_eq_sub] at bounds
  apply windowMax_le nonneg
  intro j w place inside
  rw [windowStart_eq_sub] at place
  obtain ⟨d, lag⟩ : ∃ d : ℕ, (w : ℤ) + d = roundAway (2.0 * P) :=
    ⟨(roundAway (2.0 * P) - w).toNat, by omega⟩
  rw [weight_eq_echo usable lag inside]
  exact each j d (by omega)

theorem echo_le_windowMax {j d : ℕ} (place : j + d = 512 + i) (filled : j < source.length) :
    source.getD j 0 * echo P d ≤ windowMax P source i := by
  by_cases window : roundAway (0.5 * P) ≤ d ∧ (d : ℤ) ≤ roundAway (2.0 * P)
  · have size := windowSize_eq_sub usable
    rw [windowStart_eq_sub, windowEnd_eq_sub] at size
    obtain ⟨w, lag⟩ : ∃ w : ℕ, (w : ℤ) + d = roundAway (2.0 * P) :=
      ⟨(roundAway (2.0 * P) - d).toNat, by omega⟩
    have inside : w < windowSize P := by omega
    rw [← weight_eq_echo usable lag inside]
    apply le_windowMax _ inside _ filled
    · rw [windowStart_eq_sub]
      omega
    · rw [windowEnd_eq_sub]
      omega
  · rw [echo, if_neg window, mul_zero]
    exact windowMax_nonneg _ _ _

end Window

/-! ### The score along a run -/

section Score

variable (odf : ℕ → ℝ) (P : ℝ)

/-- The tracker at call `t` with the new sample of the score. -/
noncomputable def heard (t : ℕ) : BeatTracker ℝ :=
  (initial.before (steady odf P) t).advanced (odf t) P

/-- The sample that call `t` adds to the score. -/
noncomputable def sampleAt (t : ℕ) : ℝ := (heard odf P t).age 0

theorem age_before (k : ℕ) {a : ℕ} (inside : a < 512) :
    (initial.before (steady odf P) k).age a =
      if a < k then sampleAt odf P (k - 1 - a) else 0 := by
  induction k generalizing a with
  | zero => exact (if_neg (Nat.not_lt_zero a)).symm
  | succ k ih =>
    cases a with
    | zero =>
      rw [if_pos (Nat.succ_pos k), before_succ, age, scoreRing_process]
      rfl
    | succ a =>
      rw [before_succ, age_process_succ _ _ _ inside, ih (by omega)]
      refine if_congr (by omega) ?_ rfl
      congr 1
      omega

theorem age_heard (k : ℕ) {a : ℕ} (inside : a < 512) :
    (heard odf P k).age a = if a ≤ k then sampleAt odf P (k - a) else 0 := by
  have next := age_before odf P (k + 1) inside
  rw [before_succ, age, scoreRing_process] at next
  refine Eq.trans next (if_congr (by omega) ?_ rfl)
  congr 1

/-- What call `t` hears of the score so far. -/
noncomputable def momentum (t : ℕ) : ℝ :=
  windowMax P (initial.before (steady odf P) t).linear 0

variable {P} (usable : Usable P)

include usable

theorem sampleAt_eq (t : ℕ) :
    sampleAt odf P t = 0.1 * (|odf t| + 1e-4) + 0.9 * momentum odf P t := by
  have alpha : (1 - kAlpha : ℝ) = 0.1 := by norm_num [kAlpha]
  rw [sampleAt, heard, age, scoreRing_advanced, HistoryRing.ago_push_zero, newCs_eq,
    usedPeriod_of_usable usable, alpha]
  rfl

theorem momentum_le {t : ℕ} {bound : ℝ} (nonneg : 0 ≤ bound)
    (each : ∀ d, 1 ≤ d → d ≤ t → sampleAt odf P (t - d) * echo P d ≤ bound) :
    momentum odf P t ≤ bound := by
  apply windowMax_le_of_echo usable nonneg
  intro j d place
  rcases Nat.eq_zero_or_pos d with rfl | some
  · rw [echo_zero usable, mul_zero]
    exact nonneg
  · rw [linear_getD _ (by omega), age_before odf P t (by omega)]
    split_ifs with known
    · have call : t - 1 - (511 - j) = t - d := by omega
      rw [call]
      exact each d some (by omega)
    · rw [zero_mul]
      exact nonneg

theorem le_momentum {t d : ℕ} (some : 1 ≤ d) (inside : d ≤ t) :
    sampleAt odf P (t - d) * echo P d ≤ momentum odf P t := by
  rcases Nat.lt_or_ge 512 d with far | near
  · rw [echo_of_far usable far, mul_zero]
    exact windowMax_nonneg _ _ _
  · obtain ⟨j, place⟩ : ∃ j, j + d = 512 + 0 := ⟨512 - d, by omega⟩
    have filled : j < (initial.before (steady odf P) t).linear.length := by
      rw [length_linear]
      omega
    have term := echo_le_windowMax usable place filled
    have call : t - 1 - (511 - j) = t - d := by omega
    rwa [linear_getD _ (by omega), age_before odf P t (by omega), if_pos (by omega), call] at term

end Score

/-! ### Onsets that fade -/

/-- From call to call the onsets lose what the echo of the first one gains; with its echo a call
keeps three quarters of it. -/
structure Fades (odf : ℕ → ℝ) (P : ℝ) : Prop where
  falls : ∀ k, |odf (k + 1)| + 0.9 * max 0 (echo P (k + 1) - echo P k) * (|odf 0| + 1e-4) ≤
    |odf k|
  sustains : ∀ k, ∃ d ≤ k, 0.75 * (1 - 0.9 * echo P d) * (|odf 0| + 1e-4) ≤ |odf k| + 1e-4

section Fading

variable {odf : ℕ → ℝ} {P : ℝ} (usable : Usable P) (fades : Fades odf P)

include usable

theorem sampleAt_zero : sampleAt odf P 0 = 0.1 * (|odf 0| + 1e-4) := by
  have none : momentum odf P 0 = 0 := by
    refine le_antisymm (momentum_le odf usable le_rfl fun d some inside => ?_)
      (windowMax_nonneg _ _ _)
    omega
  rw [sampleAt_eq odf usable, none, mul_zero, add_zero]

variable (odf) in
theorem sampleAt_pos (t : ℕ) : 0 < sampleAt odf P t := by
  have momentum : 0 ≤ momentum odf P t := windowMax_nonneg _ _ _
  rw [sampleAt_eq odf usable]
  linarith [abs_nonneg (odf t)]

theorem momentum_succ_le {t : ℕ}
    (falling : ∀ j < t, sampleAt odf P (j + 1) ≤ sampleAt odf P j) :
    momentum odf P (t + 1) ≤
      momentum odf P t + max 0 (echo P (t + 1) - echo P t) * sampleAt odf P 0 := by
  have start := (sampleAt_pos odf usable 0).le
  have gain : 0 ≤ max 0 (echo P (t + 1) - echo P t) * sampleAt odf P 0 :=
    mul_nonneg (le_max_left _ _) start
  have heard : 0 ≤ momentum odf P t := windowMax_nonneg _ _ _
  apply momentum_le odf usable (add_nonneg heard gain)
  intro d some inside
  rcases Nat.lt_or_ge t d with first | later
  · obtain rfl : d = t + 1 := by omega
    have before_it : sampleAt odf P 0 * echo P t ≤ momentum odf P t := by
      rcases Nat.eq_zero_or_pos t with rfl | positive
      · rw [echo_zero usable, mul_zero]
        exact heard
      · have term := le_momentum odf usable positive le_rfl
        rwa [Nat.sub_self] at term
    have most := mul_le_mul_of_nonneg_right (le_max_right 0 (echo P (t + 1) - echo P t)) start
    rw [Nat.sub_self]
    linarith
  · have call : t + 1 - d = t - d + 1 := by omega
    rw [call]
    calc sampleAt odf P (t - d + 1) * echo P d ≤ sampleAt odf P (t - d) * echo P d :=
          mul_le_mul_of_nonneg_right (falling _ (by omega)) (echo_nonneg P d)
      _ ≤ momentum odf P t := le_momentum odf usable some later
      _ ≤ _ := le_add_of_nonneg_right gain

include fades

theorem sampleAt_antitone : Antitone (sampleAt odf P) := by
  apply antitone_nat_of_succ_le
  intro t
  induction t using Nat.strong_induction_on with
  | _ t ih =>
    have heard := momentum_succ_le usable ih
    have fall := fades.falls t
    rw [sampleAt_zero usable] at heard
    rw [sampleAt_eq odf usable, sampleAt_eq odf usable]
    linarith

theorem le_sampleAt (t : ℕ) : 0.75 * sampleAt odf P 0 ≤ sampleAt odf P t := by
  induction t using Nat.strong_induction_on with
  | _ t ih =>
    obtain ⟨d, inside, kept⟩ := fades.sustains t
    have echoes : 0.75 * sampleAt odf P 0 * echo P d ≤ momentum odf P t := by
      rcases Nat.eq_zero_or_pos d with rfl | some
      · rw [echo_zero usable, mul_zero]
        exact windowMax_nonneg _ _ _
      · exact (mul_le_mul_of_nonneg_right (ih (t - d) (by omega)) (echo_nonneg P d)).trans
          (le_momentum odf usable some inside)
    rw [sampleAt_zero usable] at echoes ⊢
    rw [sampleAt_eq odf usable]
    linarith

end Fading

/-! ### The projection of a falling score -/

section Projection

variable {odf : ℕ → ℝ} {P : ℝ} (usable : Usable P) (k : ℕ)

/-- What the prediction of call `k` projects `i` calls ahead. -/
noncomputable def carried (odf : ℕ → ℝ) (P : ℝ) (k i : ℕ) : ℝ :=
  windowMax P ((heard odf P k).extended P i) i

include usable

theorem expectedScore_heard {i : ℕ} (inside : i < beatWindow P) :
    (heard odf P k).expectedScore i = carried odf P k i * beatExpectation P i := by
  have period : (heard odf P k).beatPeriod = P := usedPeriod_of_usable usable
  have place : kBufferSize + i = 512 + i := rfl
  rw [expectedScore, futureCs_eq_extended, period, place,
    getD_extended_new _ _ inside (inside.trans_le (le_max_right _ _)), carried]

theorem le_carried {i t d : ℕ} (past : t ≤ k) (apart : t + d = k + 1 + i) :
    sampleAt odf P t * echo P d ≤ carried odf P k i := by
  rcases Nat.lt_or_ge 512 d with far | near
  · rw [echo_of_far usable far, mul_zero]
    exact windowMax_nonneg _ _ _
  · obtain ⟨j, place⟩ : ∃ j, j + d = 512 + i := ⟨512 + i - d, by omega⟩
    have filled : j < ((heard odf P k).extended P i).length := by
      rw [length_extended]
      omega
    have term := echo_le_windowMax usable place filled
    have call : k - (511 - j) = t := by omega
    rwa [getD_extended_past _ _ _ (by omega), age_heard odf P k (by omega), if_pos (by omega),
      call] at term

theorem carried_le {i : ℕ} (inside : i < beatWindow P) {bound : ℝ} (nonneg : 0 ≤ bound)
    (past : ∀ t d, t ≤ k → t + d = k + 1 + i → sampleAt odf P t * echo P d ≤ bound)
    (ahead : ∀ e d, e < i → e + d = i → carried odf P k e * echo P d ≤ bound) :
    carried odf P k i ≤ bound := by
  apply windowMax_le_of_echo usable nonneg
  intro j d place
  rcases Nat.eq_zero_or_pos d with rfl | some
  · rw [echo_zero usable, mul_zero]
    exact nonneg
  rcases Nat.lt_or_ge j 512 with behind | beyond
  · rw [getD_extended_past _ _ _ behind, age_heard odf P k (by omega)]
    split_ifs with known
    · exact past _ d (Nat.sub_le _ _) (by omega)
    · rw [zero_mul]
      exact nonneg
  · obtain ⟨e, rfl⟩ := Nat.exists_eq_add_of_le beyond
    have earlier : e < i := by omega
    rw [getD_extended_new _ _ earlier ((earlier.trans inside).trans_le (le_max_right _ _))]
    exact ahead e d earlier (by omega)

variable (fades : Fades odf P)

include fades

theorem carried_le_first {i : ℕ} (inside : i < beatWindow P) :
    carried odf P k i ≤ sampleAt odf P 0 := by
  have start := (sampleAt_pos odf usable 0).le
  have faded (d : ℕ) {v : ℝ} (low : v ≤ sampleAt odf P 0) : v * echo P d ≤ sampleAt odf P 0 :=
    (mul_le_mul_of_nonneg_right low (echo_nonneg P d)).trans
      (mul_le_of_le_one_right start (echo_le_one P d))
  induction i using Nat.strong_induction_on with
  | _ i ih =>
    apply carried_le usable k inside start
    · exact fun t d _ _ => faded d (sampleAt_antitone usable fades (Nat.zero_le t))
    · exact fun e d earlier _ => faded d (ih e earlier (earlier.trans inside))

theorem carried_le_mul {i : ℕ} (inside : i < beatWindow P) {m : ℝ} (nonneg : 0 ≤ m)
    (weak : ∀ d ≤ k + 1 + i, echo P d ≤ m) : carried odf P k i ≤ sampleAt odf P 0 * m := by
  have start := (sampleAt_pos odf usable 0).le
  have faded (d : ℕ) (within : d ≤ k + 1 + i) {v : ℝ} (low : v ≤ sampleAt odf P 0) :
      v * echo P d ≤ sampleAt odf P 0 * m :=
    mul_le_mul low (weak d within) (echo_nonneg P d) start
  apply carried_le usable k inside (mul_nonneg start nonneg)
  · exact fun t d _ apart => faded d (by omega) (sampleAt_antitone usable fades (Nat.zero_le t))
  · intro e d earlier apart
    exact faded d (by omega) (carried_le_first usable k fades (earlier.trans inside))

theorem past_le_carried {i j t d : ℕ} (passed : P ≤ lag P (k + 1 + j)) (later : j ≤ i)
    (past : t ≤ k) (apart : t + d = k + 1 + i) :
    sampleAt odf P t * echo P d ≤ carried odf P k j := by
  have falling := sampleAt_antitone usable fades
  rcases Nat.le_total (i - j) t with old | young
  · -- the same lag earlier in the score
    calc sampleAt odf P t * echo P d ≤ sampleAt odf P (t - (i - j)) * echo P d :=
          mul_le_mul_of_nonneg_right (falling (Nat.sub_le _ _)) (echo_nonneg P d)
      _ ≤ carried odf P k j := le_carried usable k (by omega) (by omega)
  · -- the first sample, at a shorter lag
    calc sampleAt odf P t * echo P d ≤ sampleAt odf P 0 * echo P (k + 1 + j) :=
          mul_le_mul (falling (Nat.zero_le t)) (echo_antitone usable passed (by omega))
            (echo_nonneg P d) (sampleAt_pos odf usable 0).le
      _ ≤ carried odf P k j := le_carried usable k (Nat.zero_le k) (Nat.zero_add _)

end Projection

/-! ### Where the projection peaks -/

theorem div_sub_half {P : ℝ} (positive : 0 < P) (x : ℝ) : x / P - 0.5 = (x - P * 0.5) / P := by
  field_simp

/-- The first lag of a whole period. -/
noncomputable def wholeLag (P : ℝ) : ℕ := ⌈P - (2.0 * P - roundAway (2.0 * P))⌉₊

/-- The offset that the beat expectation favours. -/
noncomputable def centre (P : ℝ) : ℕ := ⌈P * 0.5 - 1.5⌉₊

section Peak

variable {P : ℝ} (usable : Usable P)

include usable

theorem lag_wholeLag : P ≤ lag P (wholeLag P) ∧ lag P (wholeLag P) < P + 1 := by
  obtain ⟨low, high⟩ := roundAway_near (x := 2.0 * P) (by linarith [usable.1])
  have reached := Nat.le_ceil (P - (2.0 * P - roundAway (2.0 * P)))
  have first := Nat.ceil_lt_add_one (a := P - (2.0 * P - roundAway (2.0 * P)))
    (by linarith [usable.1])
  unfold lag wholeLag
  constructor <;> linarith

theorem wholeLag_mem : P - 0.5 < wholeLag P ∧ (wholeLag P : ℝ) < P + 1.5 := by
  obtain ⟨reached, first⟩ := lag_wholeLag usable
  obtain ⟨low, high⟩ := lag_mem usable (wholeLag P)
  constructor <;> linarith

theorem le_lag_of_wholeLag_le {d : ℕ} (later : wholeLag P ≤ d) : P ≤ lag P d := by
  have cast : (wholeLag P : ℝ) ≤ d := by exact_mod_cast later
  have reached := (lag_wholeLag usable).1
  unfold lag at reached ⊢
  linarith

theorem centre_mem : P * 0.5 - 1.5 ≤ centre P ∧ (centre P : ℝ) < P * 0.5 - 0.5 := by
  have reached := Nat.le_ceil (P * 0.5 - 1.5)
  have first := Nat.ceil_lt_add_one (a := P * 0.5 - 1.5) (by linarith [usable.1])
  unfold centre
  constructor <;> linarith

theorem centre_lt_wholeLag : centre P < wholeLag P := by
  have near := (centre_mem usable).2
  have far := (wholeLag_mem usable).1
  have cast : (centre P : ℝ) < wholeLag P := by linarith [usable.1]
  exact_mod_cast cast

theorem lt_beatWindow {i : ℕ} (inside : i < beatWindow P) : (i : ℝ) + 1 ≤ P + 0.5 := by
  obtain ⟨-, high⟩ := roundAway_near (x := P) (by linarith [usable.1])
  have two : (2 : ℤ) ≤ roundAway P := by
    rw [roundAway_of_nonneg (by linarith [usable.1]), Int.le_floor]
    push_cast
    linarith [usable.1]
  rw [beatWindow, max_eq_right two] at inside
  have cast : ((i + 1 : ℤ) : ℝ) ≤ roundAway P := by
    exact_mod_cast (by omega : (i : ℤ) + 1 ≤ roundAway P)
  push_cast at cast
  linarith

theorem beatExpectation_antitone {i j : ℕ} (behind : centre P ≤ i) (later : i ≤ j) :
    beatExpectation P j ≤ beatExpectation P i := by
  rcases Nat.eq_or_lt_of_le later with rfl | after
  · exact le_rfl
  · have positive : 0 < P := by linarith [usable.1]
    have start : P * 0.5 - 0.5 ≤ ((i + 1 : ℕ) : ℝ) := by
      have cast : (centre P : ℝ) ≤ i := by exact_mod_cast behind
      push_cast
      linarith [(centre_mem usable).1]
    have next : ((i + 1 : ℕ) : ℝ) + 1 ≤ ((j + 1 : ℕ) : ℝ) := by
      exact_mod_cast Nat.succ_le_succ after
    rw [beatExpectation_eq positive, beatExpectation_eq positive]
    apply Real.exp_le_exp.mpr
    rw [div_sub_half positive, div_sub_half positive, div_pow, div_pow]
    have squares : (((i + 1 : ℕ) : ℝ) - P * 0.5) ^ 2 ≤ (((j + 1 : ℕ) : ℝ) - P * 0.5) ^ 2 :=
      sq_le_sq' (by linarith) (by linarith)
    have parts := div_le_div_of_nonneg_right squares (sq_nonneg P)
    linarith

theorem le_beatExpectation_centre (long : 14 ≤ P) : 0.99 ≤ beatExpectation P (centre P) := by
  have positive : 0 < P := by linarith
  obtain ⟨low, high⟩ := centre_mem usable
  have near : ((((centre P + 1 : ℕ) : ℝ) / P - 0.5)) ^ 2 ≤ (1 / 28) ^ 2 := by
    rw [div_sub_half positive]
    push_cast
    apply sq_le_sq'
    · rw [le_div_iff₀ positive]
      linarith
    · rw [div_le_iff₀ positive]
      linarith
  rw [beatExpectation_eq positive]
  refine le_trans ?_ (Real.add_one_le_exp _)
  norm_num at near ⊢
  linarith

end Peak

section Fading

variable {odf : ℕ → ℝ} {P : ℝ} (usable : Usable P) (long : 14 ≤ P) (fades : Fades odf P)

include usable fades

theorem expected_le {k i j : ℕ} (passed : P ≤ lag P (k + 1 + j)) (behind : centre P ≤ j)
    (later : j ≤ i) (inside : i < beatWindow P)
    (ahead : ∀ e d, e < i → e + d = i →
      carried odf P k e * (echo P d * beatExpectation P i) ≤
        carried odf P k j * beatExpectation P j) :
    (heard odf P k).expectedScore i ≤ (heard odf P k).expectedScore j := by
  have weight : 0 < beatExpectation P i := Real.exp_pos _
  have less := beatExpectation_antitone usable behind later
  have base : 0 ≤ carried odf P k j := windowMax_nonneg _ _ _
  rw [expectedScore_heard usable k inside, expectedScore_heard usable k (later.trans_lt inside),
    ← le_div_iff₀ weight]
  apply carried_le usable k inside (div_nonneg (mul_nonneg base (Real.exp_pos _).le) weight.le)
  · intro t d past apart
    rw [le_div_iff₀ weight]
    exact mul_le_mul (past_le_carried usable k fades passed later past apart) less weight.le base
  · intro e d earlier apart
    rw [le_div_iff₀ weight, mul_assoc]
    exact ahead e d earlier apart

include long

theorem expected_le_centre {k i : ℕ} (passed : wholeLag P ≤ k + 1 + centre P)
    (later : centre P ≤ i) (inside : i < beatWindow P) :
    (heard odf P k).expectedScore i ≤ (heard odf P k).expectedScore (centre P) := by
  have reached := le_lag_of_wholeLag_le usable passed
  refine expected_le usable fades reached le_rfl later inside fun e d earlier apart => ?_
  have start := sampleAt_pos odf usable 0
  obtain ⟨far, first⟩ := lag_wholeLag usable
  have near := centre_lt_wholeLag usable
  -- the sample a period before the favourite still has three quarters of the first one
  have own : sampleAt odf P (k + 1 + centre P - wholeLag P) * echo P (wholeLag P) ≤
      carried odf P k (centre P) := le_carried usable k (by omega) (by omega)
  have kept : 0.75 * sampleAt odf P 0 * 0.93 ≤ carried odf P k (centre P) :=
    (mul_le_mul (le_sampleAt usable fades _) (le_echo usable long far first) (by norm_num)
      (sampleAt_pos odf usable _).le).trans own
  calc carried odf P k e * (echo P d * beatExpectation P i)
      ≤ sampleAt odf P 0 * 0.66 :=
        mul_le_mul (carried_le_first usable k fades (earlier.trans inside))
          (echo_mul_beatExpectation_le usable (by omega))
          (mul_nonneg (echo_nonneg P d) (Real.exp_pos _).le) start.le
    _ ≤ 0.75 * sampleAt odf P 0 * 0.93 * 0.99 := by linarith
    _ ≤ carried odf P k (centre P) * beatExpectation P (centre P) :=
        mul_le_mul kept (le_beatExpectation_centre usable long) (by norm_num)
          (windowMax_nonneg _ _ _)

omit fades in
theorem echo_le_of_short {d : ℕ} (short : lag P d ≤ 0.875 * P) : echo P d ≤ 0.93 := by
  have positive : 0 < P := by linarith
  have missing : 0.125 ≤ 1 - lag P d / P := by
    have part : lag P d / P ≤ 0.875 := (div_le_iff₀ positive).mpr short
    linarith
  have square := pow_le_pow_left₀ (by norm_num) missing 2
  refine (echo_le usable (by linarith)).trans ?_
  rw [Real.exp_neg, inv_le_comm₀ (Real.exp_pos _) (by norm_num)]
  refine le_trans ?_ (Real.add_one_le_exp _)
  norm_num at square ⊢
  linarith

theorem expected_le_first {i j : ℕ} (place : 10 + j = wholeLag P) (behind : centre P ≤ j)
    (later : j ≤ i) (inside : i < beatWindow P) :
    (heard odf P 9).expectedScore i ≤ (heard odf P 9).expectedScore j := by
  obtain ⟨far, first⟩ := lag_wholeLag usable
  have call : 9 + 1 + j = wholeLag P := by omega
  refine expected_le usable fades (call ▸ far) behind later inside fun e d earlier apart => ?_
  have start := sampleAt_pos odf usable 0
  have less := beatExpectation_antitone usable behind later
  have own : sampleAt odf P 0 * echo P (wholeLag P) ≤ carried odf P 9 j :=
    le_carried usable 9 (Nat.zero_le 9) (by omega)
  have kept : sampleAt odf P 0 * 0.93 ≤ carried odf P 9 j :=
    (mul_le_mul_of_nonneg_left (le_echo usable long far first) start.le).trans own
  have window := lt_beatWindow usable inside
  -- the two lags of an echo of an echo are not both near a period
  have weak : carried odf P 9 e * echo P d ≤ sampleAt odf P 0 * 0.93 := by
    rcases le_or_gt (lag P d) (0.875 * P) with short | near
    · exact mul_le_mul (carried_le_first usable 9 fades (earlier.trans inside))
        (echo_le_of_short usable long short) (echo_nonneg P d) start.le
    · have young : ∀ d' ≤ 9 + 1 + e, echo P d' ≤ 0.93 := by
        intro d' within
        apply echo_le_of_short usable long
        have cast : (d' : ℝ) ≤ 10 + e := by exact_mod_cast within
        have sum : (e : ℝ) + d = i := by exact_mod_cast apart
        have low := (lag_mem usable d).2
        have high := (lag_mem usable d').2
        linarith
      have small := carried_le_mul usable 9 fades (earlier.trans inside) (by norm_num) young
      exact (mul_le_of_le_one_right (windowMax_nonneg _ _ _) (echo_le_one P d)).trans small
  calc carried odf P 9 e * (echo P d * beatExpectation P i)
      = carried odf P 9 e * echo P d * beatExpectation P i := (mul_assoc _ _ _).symm
    _ ≤ carried odf P 9 j * beatExpectation P j :=
        mul_le_mul (weak.trans kept) less (Real.exp_pos _).le (windowMax_nonneg _ _ _)

omit long fades in
theorem bestBeat_lt {k j : ℕ} {room : ℝ} (within : (j : ℝ) < room)
    (best : ∀ i, j ≤ i → i < beatWindow P →
      (heard odf P k).expectedScore i ≤ (heard odf P k).expectedScore j) :
    ((heard odf P k).bestBeat : ℝ) < room := by
  have period : (heard odf P k).beatPeriod = P := usedPeriod_of_usable usable
  have start : (0 : ℝ) ≤ j := Nat.cast_nonneg j
  rw [bestBeat_lt_iff (by linarith)]
  intro i inside late _
  rw [period] at inside
  have later : j ≤ i := by
    have cast : (j : ℝ) ≤ i := by linarith
    exact_mod_cast cast
  exact ⟨j, within, best i later inside⟩

end Fading

theorem halfPeriod_near {P : ℝ} (usable : Usable P) :
    P * 0.5 - 0.5 < halfPeriod P ∧ (halfPeriod P : ℝ) ≤ P * 0.5 + 0.5 := by
  rw [halfPeriod, usedPeriod_of_usable usable]
  exact roundAway_near (by linarith [usable.1])

/-- An onset of strength 10 at the first call that gives way to its echo 20 calls later. -/
noncomputable def fadingOnset (k : ℕ) : ℝ := 10.0 - 9.00009 * echo 20.0 (min k 20)

theorem fadingOnset_eq (k : ℕ) : fadingOnset k = 10 - 9.00009 * echo 20 (min k 20) := by
  have strength : (10.0 : ℝ) = 10 := by norm_num
  have period : (20.0 : ℝ) = 20 := by norm_num
  rw [fadingOnset, strength, period]

theorem lag_twenty (d : ℕ) : lag 20 d = d := by
  have whole : roundAway (2.0 * 20 : ℝ) = 40 := by
    rw [roundAway_of_nonneg (by norm_num), Int.floor_eq_iff]
    norm_num
  rw [lag, whole]
  norm_num

theorem fadingOnset_fades : Fades fadingOnset 20 := by
  have usable : Usable (20 : ℝ) := ⟨by norm_num, by norm_num⟩
  have first : |fadingOnset 0| = 10 := by
    rw [fadingOnset_eq, Nat.zero_min, echo_zero usable]
    norm_num
  have size (k : ℕ) : |fadingOnset k| = fadingOnset k := by
    apply abs_of_nonneg
    have most := echo_le_one 20 (min k 20)
    rw [fadingOnset_eq]
    linarith
  constructor
  · intro k
    rw [first, size, size, fadingOnset_eq, fadingOnset_eq]
    rcases Nat.lt_or_ge k 20 with early | late
    · have grows : echo 20 k ≤ echo 20 (k + 1) := by
        apply echo_le_succ usable
        rw [lag_twenty]
        exact_mod_cast early
      rw [min_eq_left early, min_eq_left early.le, max_eq_right (sub_nonneg.mpr grows)]
      linarith
    · have dies : echo 20 (k + 1) ≤ echo 20 k := by
        apply echo_antitone usable _ (Nat.le_succ k)
        rw [lag_twenty]
        exact_mod_cast late
      rw [min_eq_right late, min_eq_right (Nat.le_succ_of_le late),
        max_eq_left (sub_nonpos.mpr dies)]
      linarith
  · intro k
    refine ⟨min k 20, min_le_left _ _, ?_⟩
    have most := echo_le_one 20 (min k 20)
    rw [first, size, fadingOnset_eq]
    linarith

end Listeningway.Dsp.BeatTracker
