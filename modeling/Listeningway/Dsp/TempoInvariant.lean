/- Listeningway/Dsp/TempoInvariant
   source: src/audio/dsp/beat/comb_tempo.cpp
   digest: Every accepted estimate leaves a probability vector and a tempo of the grid. -/

import Listeningway.Dsp.StageRanges
import Listeningway.Dsp.TempoGain
import Mathlib.Analysis.Convex.StdSimplex

set_option autoImplicit false
set_option relaxedAutoImplicit false

namespace Listeningway.Dsp.CombTempo

/-! ### Calls -/

section Span

variable {K : Type} [Field K] [LinearOrder K] [FloorRing K] [Cmath K] [KissFft K]

def window (odf : List K) (length : odf.length = kOdfLength) (i : Fin kOdfLength) : K :=
  odf.get (i.cast length.symm)

/-- `estimate` of a span and what it returns: only one of 512 samples is accepted. -/
def estimateSpan (st : CombTempo K) (odf : List K) : CombTempo K × K :=
  if length : odf.length ≠ kOdfLength then (st, st.lastBpm)
  else
    let st := st.estimate (window odf (not_not.mp length))
    (st, st.lastBpm)

end Span

/-- The transforms may return anything, and something else at every call. -/
inductive Act where
  | reset
  | estimate (kiss : KissFft ℝ) (odf : List ℝ)

noncomputable section

def step (st : CombTempo ℝ) : Act → CombTempo ℝ
  | .reset => st.reset
  | .estimate kiss odf => (@estimateSpan ℝ _ _ _ _ kiss st odf).1

def after (acts : List Act) : CombTempo ℝ := acts.foldl step initial

/-! ### What an estimate leaves -/

structure Legal (st : CombTempo ℝ) : Prop where
  delta : st.delta ∈ stdSimplex ℝ (Fin kNumTempoStates)
  prevDelta : st.prevDelta ∈ stdSimplex ℝ (Fin kNumTempoStates)
  lastBpm : ∃ k ≤ 40, st.lastBpm = 80 + 2 * (k : ℕ)
  period : st.lastBeatPeriodSamples * st.lastBpm = 5160
  confidence : 0 ≤ st.lastConfidence ∧ st.lastConfidence ≤ 1
  tempoObs : ∀ k, 0 ≤ st.tempoObs k

/-- The vectors an estimate goes through. -/
structure Nonneg [KissFft ℝ] (odf : Fin kOdfLength → ℝ) : Prop where
  thresholded : ∀ i, 0 ≤ adaptiveThreshold odf i
  acf : ∀ i, 0 ≤ balancedAcf (adaptiveThreshold odf) i
  comb : ∀ i, 0 ≤ combFilterbank (balancedAcf (adaptiveThreshold odf)) i
  sharpened : ∀ i, 0 ≤ adaptiveThreshold (combFilterbank (balancedAcf (adaptiveThreshold odf))) i
  observed : ∀ k, 0 ≤ observed odf k

theorem nonneg [KissFft ℝ] (odf : Fin kOdfLength → ℝ) : Nonneg odf where
  thresholded := adaptiveThreshold_nonneg odf
  acf := balancedAcf_nonneg _
  comb := combFilterbank_nonneg (balancedAcf_nonneg _)
  sharpened := adaptiveThreshold_nonneg _
  observed := observed_nonneg odf

theorem viterbi_nonneg {prevDelta obs : Fin kNumTempoStates → ℝ} (observed : ∀ k, 0 ≤ obs k)
    (j : Fin kNumTempoStates) : 0 ≤ viterbi prevDelta obs j :=
  mul_nonneg (le_max_left _ _) (observed j)

theorem normalise_mem {delta : Fin kNumTempoStates → ℝ} (nonneg : ∀ j, 0 ≤ delta j) :
    normalise delta ∈ stdSimplex ℝ (Fin kNumTempoStates) := by
  by_cases enough : 1e-12 < ∑ i, delta i
  · have positive : 0 < ∑ i, delta i := lt_trans (by norm_num) enough
    have scaled (j : Fin kNumTempoStates) : normalise delta j = delta j * (1 / ∑ i, delta i) :=
      if_pos enough
    constructor
    · intro j
      rw [scaled]
      exact mul_nonneg (nonneg j) (one_div_nonneg.mpr positive.le)
    · simp only [scaled]
      rw [← Finset.sum_mul, mul_one_div_cancel positive.ne']
  · have uniform (j : Fin kNumTempoStates) : normalise delta j = 1 / (kNumTempoStates : ℝ) :=
      if_neg enough
    constructor
    · intro j
      rw [uniform]
      exact one_div_nonneg.mpr (Nat.cast_nonneg _)
    · simp only [uniform]
      rw [Finset.sum_const, Finset.card_univ, Fintype.card_fin, nsmul_eq_mul, mul_one_div_cancel]
      norm_num [kNumTempoStates]

theorem legal_estimate [KissFft ℝ] (st : CombTempo ℝ) (odf : Fin kOdfLength → ℝ) :
    Legal (st.estimate odf) := by
  have posterior : normalise (viterbi st.prevDelta (observed odf)) ∈ stdSimplex ℝ _ :=
    normalise_mem (viterbi_nonneg (observed_nonneg odf))
  set peak := argmax (st.estimate odf).delta with found
  have bpm : (st.estimate odf).lastBpm = 80 + 2 * ((peak : ℕ) : ℝ) := by
    change ((2 * peak + 80 : ℕ) : ℝ) = _
    push_cast
    ring
  have period : (st.estimate odf).lastBeatPeriodSamples =
      kTempoToLagFactor / max (st.estimate odf).lastBpm 1 := rfl
  have slowest : (80 : ℝ) ≤ (st.estimate odf).lastBpm := by
    rw [bpm]
    have index : (0 : ℝ) ≤ (peak : ℕ) := Nat.cast_nonneg _
    linarith
  constructor
  · exact posterior
  · exact posterior
  · exact ⟨peak, Nat.lt_succ_iff.mp peak.2, bpm⟩
  · rw [period, max_eq_left (by linarith), div_mul_cancel₀ _ (by linarith)]
    norm_num [kTempoToLagFactor]
  · exact confidence_mem _ _
  · exact observed_nonneg odf

/-! ### Runs -/

theorem initial_or_legal (acts : List Act) : after acts = initial ∨ Legal (after acts) := by
  induction acts using List.reverseRecOn with
  | nil => exact .inl rfl
  | append_singleton acts act ih =>
    rw [after, List.foldl_append]
    change step (after acts) act = initial ∨ Legal (step (after acts) act)
    cases act with
    | reset => exact .inl rfl
    | estimate kiss odf =>
      unfold step estimateSpan
      dsimp only
      split_ifs with other
      · exact ih
      · exact .inr (legal_estimate _ _)

/-- After every run an accepted window leaves a legal state, by way of vectors that are not
negative, and a refused one leaves the state alone. -/
theorem estimates_stay_legal (acts : List Act) [kiss : KissFft ℝ] (odf : List ℝ) :
    (∀ length : odf.length = kOdfLength,
        Legal (after (acts ++ [.estimate kiss odf])) ∧ Nonneg (window odf length) ∧
          (after (acts ++ [.estimate kiss odf])).tempoObs = observed (window odf length)) ∧
      (odf.length ≠ kOdfLength → after (acts ++ [.estimate kiss odf]) = after acts ∧
        (estimateSpan (after acts) odf).2 = (after acts).lastBpm) ∧
      (after acts = initial ∨ Legal (after acts)) := by
  have last : after (acts ++ [.estimate kiss odf]) = (estimateSpan (after acts) odf).1 := by
    rw [after, List.foldl_append]
    rfl
  refine ⟨fun length => ?_, fun other => ?_, initial_or_legal acts⟩
  · rw [last, estimateSpan, dif_neg (not_not.mpr length)]
    exact ⟨legal_estimate _ _, nonneg _, rfl⟩
  · rw [last, estimateSpan, dif_pos other]
    exact ⟨rfl, rfl⟩

end

end Listeningway.Dsp.CombTempo
