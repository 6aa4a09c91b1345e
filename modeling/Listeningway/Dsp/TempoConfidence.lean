/- Listeningway/Dsp/TempoConfidence
   source: src/audio/dsp/beat/comb_tempo.cpp
   digest: When the confidence of a tempo is that of a peak of the observation. -/

import Listeningway.Dsp.TempoPath

/-!
The parabola is fitted to the observation, but where the posterior has its peak. There the
observation may rise or fall, and the nearly straight slope is extrapolated to a vertex far
above it.
-/

set_option autoImplicit false
set_option relaxedAutoImplicit false

namespace Listeningway.Dsp.CombTempo

open Listeningway.Lib.Clamp
open Listeningway.Lib.BestPath (extend le_extend exists_extend extend_mul_right)

/-- The largest entry of the observation. -/
noncomputable def largest (obs : Fin kNumTempoStates → ℝ) : ℝ :=
  Finset.univ.sup' Finset.univ_nonempty obs

theorem le_largest (obs : Fin kNumTempoStates → ℝ) (k : Fin kNumTempoStates) :
    obs k ≤ largest obs :=
  Finset.le_sup' obs (Finset.mem_univ k)

/-- The state whose posterior is largest, at which the parabola is fitted. -/
noncomputable def favoured (st : CombTempo ℝ) (obs : Fin kNumTempoStates → ℝ) :
    Fin kNumTempoStates :=
  argmax (normalise (viterbi st.prevDelta obs))

/-- Staying at `i` before, state `p` is the best to be in now. -/
def LeadsTo (obs : Fin kNumTempoStates → ℝ) (i p : Fin kNumTempoStates) : Prop :=
  ∀ j, transition i j * obs j ≤ transition i p * obs p

/-- Where the smoother can be led, the observation has a peak or does not bend down. -/
def PeaksWhereLed (obs : Fin kNumTempoStates → ℝ) : Prop :=
  ∀ i p a b : Fin kNumTempoStates, LeadsTo obs i p → (a : ℕ) + 1 = p → (b : ℕ) = p + 1 →
    (obs a ≤ obs p ∧ obs b ≤ obs p) ∨ -1e-12 < obs a - 2.0 * obs p + obs b

/-- At an inner state `p` the neighbours do not bend down, or differ by no more than the bend
allows. -/
def FitsPeak (obs : Fin kNumTempoStates → ℝ) (p : Fin kNumTempoStates) : Prop :=
  ∀ a b : Fin kNumTempoStates, (a : ℕ) + 1 = p → (b : ℕ) = p + 1 →
    -1e-12 < obs a - 2.0 * obs p + obs b ∨
      (obs a - obs b) ^ 2 ≤
        8.0 * (2.0 * obs p - obs a - obs b) * (9.0 / 8.0 * largest obs - obs p)

/-! ### The vertex -/

section Vertex

variable {obs : Fin kNumTempoStates → ℝ} {p a b : Fin kNumTempoStates}

theorem quadraticPeakMag_inner (before : (a : ℕ) + 1 = p) (after : (b : ℕ) = p + 1) :
    quadraticPeakMag obs p =
      if |obs a - 2 * obs p + obs b| < 1e-12 then obs p
      else obs p - (obs a - obs b) ^ 2 / (8 * (obs a - 2 * obs p + obs b)) := by
  have inner : 0 < (p : ℕ) ∧ (p : ℕ) + 1 < kNumTempoStates := ⟨by omega, after ▸ b.2⟩
  obtain rfl : a = ⟨p - 1, lt_of_le_of_lt (Nat.sub_le _ _) p.2⟩ := by
    apply Fin.ext
    change (a : ℕ) = p - 1
    omega
  obtain rfl : b = ⟨p + 1, inner.2⟩ := Fin.ext after
  rw [quadraticPeakMag, dif_pos inner]
  dsimp only
  rw [two_eq]
  split_ifs with flat
  · rfl
  · have bend : obs ⟨p - 1, lt_of_le_of_lt (Nat.sub_le _ _) p.2⟩ - 2 * obs p +
        obs ⟨p + 1, inner.2⟩ ≠ 0 := by
      intro zero
      rw [zero, abs_zero] at flat
      norm_num at flat
    field_simp
    ring

theorem quadraticPeakMag_end (outer : (p : ℕ) = 0 ∨ (p : ℕ) + 1 = kNumTempoStates) :
    quadraticPeakMag obs p = obs p := by
  rw [quadraticPeakMag, dif_neg]
  omega

theorem fitsPeak_inner (before : (a : ℕ) + 1 = p) (after : (b : ℕ) = p + 1) :
    FitsPeak obs p ↔ -1e-12 < obs a - 2 * obs p + obs b ∨
      (obs a - obs b) ^ 2 ≤
        8 * (2 * obs p - obs a - obs b) * (9 / 8 * largest obs - obs p) := by
  have eight : (8.0 : ℝ) = 8 := by norm_num
  have nine : (9.0 : ℝ) = 9 := by norm_num
  rw [← two_eq, ← eight, ← nine]
  constructor
  · intro fits
    exact fits a b before after
  · intro fits a' b' before' after'
    obtain rfl : a' = a := Fin.ext (by omega)
    obtain rfl : b' = b := Fin.ext (by omega)
    exact fits

theorem vertex_le_iff {u v m bound : ℝ} (plain : m ≤ bound) :
    (if |u - 2 * m + v| < 1e-12 then m else m - (u - v) ^ 2 / (8 * (u - 2 * m + v))) ≤ bound ↔
      -1e-12 < u - 2 * m + v ∨ (u - v) ^ 2 ≤ 8 * (2 * m - u - v) * (bound - m) := by
  rcases lt_or_ge (-1e-12) (u - 2 * m + v) with up | down
  · refine iff_of_true ?_ (.inl up)
    split_ifs with flat
    · exact plain
    · have bend : 0 < u - 2 * m + v := by
        by_contra negative
        exact flat (abs_lt.mpr ⟨up, by linarith⟩)
      have part : 0 ≤ (u - v) ^ 2 / (8 * (u - 2 * m + v)) := by positivity
      linarith
  · have bend : 0 < 8 * (2 * m - u - v) := by linarith
    have steep : ¬|u - 2 * m + v| < 1e-12 := by
      rw [not_lt, abs_of_neg (by linarith)]
      linarith
    have turned : (u - v) ^ 2 / (8 * (u - 2 * m + v)) =
        -((u - v) ^ 2 / (8 * (2 * m - u - v))) := by
      rw [← div_neg]
      congr 1
      ring
    rw [if_neg steep, turned, sub_neg_eq_add, or_iff_right (not_lt.mpr down),
      ← le_sub_iff_add_le', div_le_iff₀ bend, mul_comm]

theorem quadraticPeakMag_le_iff (nonneg : ∀ k, 0 ≤ obs k) (p : Fin kNumTempoStates) :
    quadraticPeakMag obs p ≤ 9 / 8 * largest obs ↔ FitsPeak obs p := by
  have top := le_largest obs p
  have bottom := nonneg p
  have plain : obs p ≤ 9 / 8 * largest obs := by linarith
  by_cases inner : 0 < (p : ℕ) ∧ (p : ℕ) + 1 < kNumTempoStates
  · obtain ⟨a, before⟩ : ∃ a : Fin kNumTempoStates, (a : ℕ) + 1 = p :=
      ⟨⟨p - 1, lt_of_le_of_lt (Nat.sub_le _ _) p.2⟩, Nat.sub_add_cancel inner.1⟩
    obtain ⟨b, after⟩ : ∃ b : Fin kNumTempoStates, (b : ℕ) = p + 1 := ⟨⟨p + 1, inner.2⟩, rfl⟩
    rw [fitsPeak_inner before after, quadraticPeakMag_inner before after]
    exact vertex_le_iff plain
  · have outer : (p : ℕ) = 0 ∨ (p : ℕ) + 1 = kNumTempoStates := by
      have inside := p.2
      omega
    rw [quadraticPeakMag_end outer]
    refine iff_of_true plain fun a b before after => ?_
    have inside := b.2
    omega

theorem slope_le_of_peak (nonneg : ∀ k, 0 ≤ obs k) (left : obs a ≤ obs p)
    (right : obs b ≤ obs p) :
    (obs a - obs b) ^ 2 ≤
      8.0 * (2.0 * obs p - obs a - obs b) * (9.0 / 8.0 * largest obs - obs p) := by
  have low := nonneg a
  have low' := nonneg b
  have top := le_largest obs p
  norm_num
  nlinarith

end Vertex

/-! ### The confidence -/

/-- The confidence claims no more than the largest vertex a parabola on a peak can have. -/
def ClaimsPeak (st : CombTempo ℝ) (obs : Fin kNumTempoStates → ℝ) : Prop :=
  (smooth st obs).lastConfidence ≤ 9.0 / 8.0 * (largest obs / ∑ k, obs k)

theorem claimsPeak_iff {obs : Fin kNumTempoStates → ℝ} (nonneg : ∀ k, 0 ≤ obs k)
    (heard : 1e-12 < ∑ k, obs k) (st : CombTempo ℝ) :
    ClaimsPeak st obs ↔
      ∑ k, obs k ≤ 9 / 8 * largest obs ∨ FitsPeak obs (favoured st obs) := by
  have positive : 0 < ∑ k, obs k := lt_trans (by norm_num) heard
  have bound : 0 ≤ 9 / 8 * (largest obs / ∑ k, obs k) := by
    have top := (nonneg ⟨0, by decide⟩).trans (le_largest obs _)
    positivity
  have value : (smooth st obs).lastConfidence =
      clamp (quadraticPeakMag obs (favoured st obs) / ∑ k, obs k) 0 1 := if_pos heard
  have eighths : (9.0 : ℝ) / 8.0 = 9 / 8 := by norm_num
  have whole : 9 / 8 * (largest obs / ∑ k, obs k) = 9 / 8 * largest obs / ∑ k, obs k :=
    (mul_div_assoc _ _ _).symm
  rw [ClaimsPeak, value, eighths, clamp_le_iff bound, whole, le_div_iff₀ positive, one_mul,
    div_le_div_iff_of_pos_right positive, quadraticPeakMag_le_iff nonneg]

theorem led_to_favoured {st : CombTempo ℝ} (prior : ∀ i, 0 ≤ st.prevDelta i)
    {obs : Fin kNumTempoStates → ℝ} (nonneg : ∀ k, 0 ≤ obs k) :
    (favoured st obs : ℕ) = 0 ∨ ∃ i, LeadsTo obs i (favoured st obs) := by
  by_cases enough : 1e-12 < ∑ j, viterbi st.prevDelta obs j
  · right
    obtain ⟨factor, scaled⟩ := normalise_of_enough enough
    have most (j : Fin kNumTempoStates) :
        viterbi st.prevDelta obs j ≤ viterbi st.prevDelta obs (favoured st obs) := by
      have best := (argmax_spec (normalise (viterbi st.prevDelta obs))).1 j
      rw [scaled, scaled] at best
      exact le_of_mul_le_mul_left best factor
    obtain ⟨i, last⟩ := exists_extend (fun i j => transition i j * obs j) st.prevDelta
      (favoured st obs)
    rw [← viterbi_eq prior nonneg] at last
    have before_it : 0 < st.prevDelta i := by
      refine lt_of_le_of_ne (prior i) fun none => ?_
      rw [← none, zero_mul] at last
      have empty := Finset.sum_nonpos fun j (_ : j ∈ Finset.univ) => (most j).trans_eq last
      linarith
    refine ⟨i, fun j => le_of_mul_le_mul_left ?_ before_it⟩
    rw [← last]
    refine le_trans ?_ (most j)
    rw [viterbi_eq prior nonneg]
    exact le_extend (fun i j => transition i j * obs j) st.prevDelta i j
  · left
    have level : ∀ j, normalise (viterbi st.prevDelta obs) j = 1 / (kNumTempoStates : ℝ) :=
      fun j => if_neg enough
    by_contra inner
    have strict := (argmax_spec (normalise (viterbi st.prevDelta obs))).2 ⟨0, by decide⟩
      (Nat.pos_of_ne_zero inner)
    rw [level, level] at strict
    exact lt_irrefl _ strict

/-- Where the smoother can only be led to peaks, the confidence claims no more than a peak,
whatever the estimates before. -/
theorem peaks_bound_confidence {obs : Fin kNumTempoStates → ℝ} (nonneg : ∀ k, 0 ≤ obs k)
    (heard : 1e-12 < ∑ k, obs k) (peaks : PeaksWhereLed obs) {st : CombTempo ℝ}
    (prior : ∀ i, 0 ≤ st.prevDelta i) : ClaimsPeak st obs := by
  refine (claimsPeak_iff nonneg heard st).mpr (.inr fun a b before after => ?_)
  rcases led_to_favoured prior nonneg with lowest | ⟨i, led⟩
  · omega
  · rcases peaks i _ a b led before after with ⟨left, right⟩ | up
    · exact .inr (slope_le_of_peak nonneg left right)
    · exact .inl up

/-! ### A slope -/

theorem argmax_eq {x : Fin kNumTempoStates → ℝ} {p : Fin kNumTempoStates}
    (surpasses : ∀ k, k ≠ p → x k < x p) : argmax x = p := by
  by_contra other
  exact absurd ((argmax_spec x).1 p) (not_le.mpr (surpasses _ other))

theorem favoured_eq {st : CombTempo ℝ} {obs : Fin kNumTempoStates → ℝ} {p : Fin kNumTempoStates}
    (enough : 1e-12 < ∑ j, viterbi st.prevDelta obs j)
    (surpasses : ∀ k, k ≠ p → viterbi st.prevDelta obs k < viterbi st.prevDelta obs p) :
    favoured st obs = p := by
  obtain ⟨factor, scaled⟩ := normalise_of_enough enough
  apply argmax_eq
  intro k other
  rw [scaled, scaled]
  exact mul_lt_mul_of_pos_left (surpasses k other) factor

/-- A tempo of 120 bpm, from the estimates before. -/
noncomputable def certain : CombTempo ℝ :=
  { initial with prevDelta := fun i => if (i : ℕ) = 20 then 1 else 0 }

theorem certain_nonneg (i : Fin kNumTempoStates) : 0 ≤ certain.prevDelta i := by
  change (0 : ℝ) ≤ if (i : ℕ) = 20 then 1 else 0
  split_ifs <;> norm_num

/-- An observation that rises through 120 bpm, nearly straight. -/
noncomputable def slope (k : Fin kNumTempoStates) : ℝ :=
  if (k : ℕ) = 19 then 0.99 else if (k : ℕ) = 20 then 1 else if (k : ℕ) = 21 then 1.009999 else 0

theorem slope_nonneg (k : Fin kNumTempoStates) : 0 ≤ slope k := by
  unfold slope
  split_ifs <;> norm_num

theorem slope_le (k : Fin kNumTempoStates) : slope k ≤ 1.01 := by
  unfold slope
  split_ifs <;> norm_num

theorem extend_certain (j : Fin kNumTempoStates) :
    extend transition certain.prevDelta j = transition ⟨20, by decide⟩ j := by
  apply le_antisymm
  · obtain ⟨i, found⟩ := exists_extend transition certain.prevDelta j
    rw [found]
    change (if (i : ℕ) = 20 then (1 : ℝ) else 0) * _ ≤ _
    split_ifs with here
    · rw [one_mul, show i = ⟨20, by decide⟩ from Fin.ext here]
    · rw [zero_mul]
      exact (transition_pos _ _).le
  · have stay := le_extend transition certain.prevDelta ⟨20, by decide⟩ j
    exact (one_mul _).ge.trans stay

theorem viterbi_certain {obs : Fin kNumTempoStates → ℝ} (nonneg : ∀ k, 0 ≤ obs k)
    (j : Fin kNumTempoStates) :
    viterbi certain.prevDelta obs j = transition ⟨20, by decide⟩ j * obs j := by
  rw [viterbi_eq certain_nonneg nonneg, extend_mul_right nonneg, extend_certain]

theorem transition_le (i : Fin kNumTempoStates) {j : Fin kNumTempoStates} (apart : j ≠ i) :
    transition i j * 1.019 ≤ (transition i i : ℝ) := by
  have square : (1 : ℝ) ≤ (((j : ℕ) : ℝ) - ((i : ℕ) : ℝ)) * (((j : ℕ) : ℝ) - ((i : ℕ) : ℝ)) := by
    have whole : (1 : ℤ) ≤ ((j : ℤ) - (i : ℤ)) * ((j : ℤ) - (i : ℤ)) := by
      have nonzero : (j : ℤ) - (i : ℤ) ≠ 0 := by
        intro same
        exact apart (Fin.ext (by omega))
      have positive := mul_self_pos.mpr nonzero
      omega
    exact_mod_cast whole
  have sigma : (0 : ℝ) < 2.0 * (kTransitionSigma * kTransitionSigma) ∧
      2.0 * (kTransitionSigma * kTransitionSigma : ℝ) ≤ 52.6 := by
    constructor <;> norm_num [kTransitionSigma]
  have moved : Real.exp (-((((j : ℕ) : ℝ) - ((i : ℕ) : ℝ)) * (((j : ℕ) : ℝ) - ((i : ℕ) : ℝ))) /
      (2.0 * (kTransitionSigma * kTransitionSigma))) * 1.019 ≤ 1 := by
    have exponent : (0.019 : ℝ) ≤ (((j : ℕ) : ℝ) - ((i : ℕ) : ℝ)) *
        (((j : ℕ) : ℝ) - ((i : ℕ) : ℝ)) / (2.0 * (kTransitionSigma * kTransitionSigma)) := by
      rw [le_div_iff₀ sigma.1]
      linarith [sigma.2]
    have growth := Real.add_one_le_exp ((((j : ℕ) : ℝ) - ((i : ℕ) : ℝ)) *
        (((j : ℕ) : ℝ) - ((i : ℕ) : ℝ)) / (2.0 * (kTransitionSigma * kTransitionSigma)))
    rw [neg_div, Real.exp_neg, inv_mul_le_iff₀ (Real.exp_pos _), mul_one]
    linarith
  have factor := (transition_pos i i).le
  rw [transition_self] at factor ⊢
  exact (mul_assoc _ _ _).le.trans (mul_le_of_le_one_right factor moved)

theorem favoured_certain {obs : Fin kNumTempoStates → ℝ} (nonneg : ∀ k, 0 ≤ obs k)
    (here : obs ⟨20, by decide⟩ = 1) (most : ∀ k, obs k ≤ 1.01) :
    favoured certain obs = ⟨20, by decide⟩ := by
  have self : viterbi certain.prevDelta obs ⟨20, by decide⟩ =
      transition ⟨20, by decide⟩ ⟨20, by decide⟩ := by
    rw [viterbi_certain nonneg, here]
    exact mul_one _
  have some := le_transition ⟨20, by decide⟩
  apply favoured_eq
  · have terms : ∀ j, 0 ≤ viterbi certain.prevDelta obs j :=
      fun j => mul_nonneg (le_max_left _ _) (nonneg j)
    have single := Finset.single_le_sum (fun j _ => terms j)
      (Finset.mem_univ (⟨20, by decide⟩ : Fin kNumTempoStates))
    rw [self] at single
    exact lt_of_lt_of_le (by norm_num) (some.trans single)
  · intro k other
    have loss := transition_le ⟨20, by decide⟩ other
    have weight := transition_pos ⟨20, by decide⟩ k
    have bound := most k
    rw [self, viterbi_certain nonneg]
    nlinarith

theorem two_le_sum_slope : 2 ≤ ∑ k, slope k := by
  have pair : ∑ k ∈ {(⟨20, by decide⟩ : Fin kNumTempoStates), ⟨21, by decide⟩}, slope k =
      1 + 1.009999 := Finset.sum_pair (by decide)
  have part := Finset.sum_le_sum_of_subset_of_nonneg (Finset.subset_univ
    {(⟨20, by decide⟩ : Fin kNumTempoStates), ⟨21, by decide⟩}) fun k _ _ => slope_nonneg k
  rw [pair] at part
  linarith

/-- On the slope the confidence is full, and no entry has half of the sum. -/
theorem slope_claims_too_much :
    ¬ ∀ (st : CombTempo ℝ) (obs : Fin kNumTempoStates → ℝ), (∀ i, 0 ≤ st.prevDelta i) →
      (∀ k, 0 ≤ obs k) → 1e-12 < ∑ k, obs k → ClaimsPeak st obs := by
  intro claims
  have sum := two_le_sum_slope
  have heard : 1e-12 < ∑ k, slope k := lt_of_lt_of_le (by norm_num) sum
  have most : largest slope ≤ 1.01 := Finset.sup'_le _ _ fun k _ => slope_le k
  rcases (claimsPeak_iff slope_nonneg heard certain).mp
    (claims certain slope certain_nonneg slope_nonneg heard) with whole | fits
  · linarith
  · rw [favoured_certain slope_nonneg rfl slope_le] at fits
    have bend := (fitsPeak_inner (a := ⟨19, by decide⟩) (b := ⟨21, by decide⟩) rfl rfl).mp fits
    change -1e-12 < (0.99 : ℝ) - 2 * 1 + 1.009999 ∨
      (0.99 - 1.009999 : ℝ) ^ 2 ≤
        8 * (2 * 1 - 0.99 - 1.009999) * (9 / 8 * largest slope - 1) at bend
    norm_num at bend
    linarith

/-! ### A crest -/

/-- An observation with a peak at 120 bpm and one at 140 bpm. -/
noncomputable def crest (k : Fin kNumTempoStates) : ℝ :=
  if (k : ℕ) = 20 then 1 else if (k : ℕ) = 30 then 1 else
    if (k : ℕ) = 19 ∨ (k : ℕ) = 21 ∨ (k : ℕ) = 29 ∨ (k : ℕ) = 31 then 0.25 else 0

theorem crest_nonneg (k : Fin kNumTempoStates) : 0 ≤ crest k := by
  unfold crest
  split_ifs <;> norm_num

theorem crest_le (k : Fin kNumTempoStates) : crest k ≤ 1.01 := by
  unfold crest
  split_ifs <;> norm_num

theorem sum_crest : ∑ k, crest k = 3 := by
  have terms := Fin.sum_univ_eq_sum_range (fun k : ℕ => if k = 20 then (1 : ℝ) else
    if k = 30 then 1 else if k = 19 ∨ k = 21 ∨ k = 29 ∨ k = 31 then 0.25 else 0) kNumTempoStates
  refine terms.trans ?_
  simp only [kNumTempoStates, Finset.sum_range_succ, Finset.sum_range_zero]
  norm_num

theorem crest_peaks : PeaksWhereLed crest := by
  intro i p a b led before after
  have heard : 0 < crest p := by
    by_contra silent
    have top := led ⟨20, by decide⟩
    have none : crest p = 0 := le_antisymm (not_lt.mp silent) (crest_nonneg p)
    have weight := transition_pos i ⟨20, by decide⟩
    rw [none, mul_zero] at top
    have one : crest ⟨20, by decide⟩ = 1 := rfl
    rw [one, mul_one] at top
    linarith
  have places : (p : ℕ) = 20 ∨ (p : ℕ) = 30 ∨
      ((p : ℕ) = 19 ∨ (p : ℕ) = 21 ∨ (p : ℕ) = 29 ∨ (p : ℕ) = 31) := by
    by_contra elsewhere
    rw [crest, if_neg (by tauto), if_neg (by tauto), if_neg (by tauto)] at heard
    exact lt_irrefl _ heard
  have left : (a : ℕ) = p - 1 := by omega
  rcases places with here | here | here | here | here | here
  case inl | inr.inl =>
    left
    norm_num [crest, left, after, here]
  all_goals
    right
    norm_num [crest, left, after, here]

/-- The tempo of before keeps 120 bpm, with a third of the whole. -/
theorem crest_claims_third :
    (smooth certain crest).lastConfidence = 1 / 3 ∧ ClaimsPeak certain crest := by
  have heard : 1e-12 < ∑ k, crest k := by
    rw [sum_crest]
    norm_num
  refine ⟨?_, peaks_bound_confidence crest_nonneg heard crest_peaks certain_nonneg⟩
  have value : (smooth certain crest).lastConfidence =
      clamp (quadraticPeakMag crest (favoured certain crest) / ∑ k, crest k) 0 1 := if_pos heard
  have vertex : quadraticPeakMag crest ⟨20, by decide⟩ = 1 := by
    rw [quadraticPeakMag_inner (a := ⟨19, by decide⟩) (b := ⟨21, by decide⟩) rfl rfl]
    norm_num [crest]
  rw [value, favoured_certain crest_nonneg rfl crest_le, vertex, sum_crest]
  norm_num [clamp]

end Listeningway.Dsp.CombTempo
