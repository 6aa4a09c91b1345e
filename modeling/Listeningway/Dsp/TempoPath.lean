/- Listeningway/Dsp/TempoPath
   source: src/audio/dsp/beat/comb_tempo.cpp
   digest: The recursive smoother keeps the best path through the tempo states. -/

import Listeningway.Dsp.TempoGain
import Listeningway.Lib.BestPath

/-!
The normalisation of one estimate is the prior of the next, so after `n` estimates the
posterior is the best product of each state times `n` positive factors, common to all states.
-/

set_option autoImplicit false
set_option relaxedAutoImplicit false

namespace Listeningway.Dsp.CombTempo

open Listeningway.Lib.BestPath
open Listeningway.Lib.FoldMax
open Listeningway.Lib.StreamRun

/-! ### Steps 6 and 7 -/

section Smooth

variable {K : Type} [Field K] [LinearOrder K] [Cmath K]

/-- `estimate` from the observation on. -/
def smooth (st : CombTempo K) (obs : Fin kNumTempoStates → K) : CombTempo K :=
  let delta := normalise (viterbi st.prevDelta obs)
  let peak := argmax delta
  let bpm : K := ((2 * peak + 80 : ℕ) : K)
  { tempoObs := obs
    prevDelta := delta
    delta := delta
    lastBpm := bpm
    lastConfidence := confidence obs peak
    lastBeatPeriodSamples := kTempoToLagFactor / max bpm 1 }

theorem estimate_eq_smooth [FloorRing K] [KissFft K] (st : CombTempo K)
    (odf : Fin kOdfLength → K) : estimate st odf = smooth st (observed odf) := rfl

/-- The weight of a step of a path: the transition and what is observed where it leads. -/
def stepWeight (obs : ℕ → Fin kNumTempoStates → K) (t : ℕ) (i j : Fin kNumTempoStates) : K :=
  transition i j * obs t j

end Smooth

instance : Nonempty (Fin kNumTempoStates) := ⟨⟨0, by decide⟩⟩

theorem transition_pos (i j : Fin kNumTempoStates) : (0 : ℝ) < transition i j := by
  have root : 0 < Real.sqrt (2.0 * Real.pi) := by
    apply Real.sqrt_pos.mpr
    have pi := Real.pi_pos
    norm_num
    exact pi
  have sigma : (0 : ℝ) < kTransitionSigma := by norm_num [kTransitionSigma]
  exact mul_pos (one_div_pos.mpr (mul_pos sigma root)) (Real.exp_pos _)

theorem argmax_spec {K : Type} [LinearOrder K] (x : Fin kNumTempoStates → K) :
    (∀ k, x k ≤ x (argmax x)) ∧ ∀ k < argmax x, x k < x (argmax x) := by
  have sorted : ((⟨0, by decide⟩ : Fin kNumTempoStates) ::
      List.finRange kNumTempoStates).Pairwise (· ≤ ·) := by
    rw [List.pairwise_cons]
    refine ⟨fun k _ => Nat.zero_le k, ?_⟩
    exact (List.pairwise_lt_finRange _).imp fun less => less.le
  obtain ⟨most, strict⟩ := foldl_first (v := x) sorted
  refine ⟨fun k => ?_, fun k before => ?_⟩
  · exact most k (List.mem_cons_of_mem _ (List.mem_finRange k))
  · exact strict k (List.mem_cons_of_mem _ (List.mem_finRange k)) before

theorem viterbi_eq {prevDelta obs : Fin kNumTempoStates → ℝ} (prior : ∀ i, 0 ≤ prevDelta i)
    (nonneg : ∀ j, 0 ≤ obs j) (j : Fin kNumTempoStates) :
    viterbi prevDelta obs j = extend (fun i j => transition i j * obs j) prevDelta j := by
  have term : ∀ i, 0 ≤ prevDelta i * transition i j := fun i =>
    mul_nonneg (prior i) (transition_pos i j).le
  have loop : max 0 ((List.finRange kNumTempoStates).foldl (fun best i =>
      let v := prevDelta i * transition i j
      if best < v then v else best) (-1)) = extend transition prevDelta j := by
    obtain ⟨i, found⟩ := exists_extend transition prevDelta j
    have below : (List.finRange kNumTempoStates).foldl (fun best i => if True then
        if best < prevDelta i * transition i j then prevDelta i * transition i j else best
        else best) (-1) ≤ extend transition prevDelta j :=
      foldl_max_le (by linarith [found ▸ term i]) fun i _ _ => le_extend transition prevDelta i j
    have above := le_foldl_max (p := fun _ => True) (v := fun i => prevDelta i * transition i j)
      (-1) (List.mem_finRange i) trivial
    simp only [if_true] at below above
    apply le_antisymm
    · exact max_le (found ▸ term i) below
    · rw [found]
      exact above.trans (le_max_right _ _)
  rw [extend_mul_right nonneg, ← loop]
  rfl

/-! ### Runs -/

theorem normalise_of_enough {delta : Fin kNumTempoStates → ℝ} (enough : 1e-12 < ∑ i, delta i) :
    0 < 1 / ∑ i, delta i ∧ ∀ j, normalise delta j = 1 / (∑ i, delta i) * delta j := by
  have positive : 0 < ∑ i, delta i := lt_trans (by norm_num) enough
  refine ⟨one_div_pos.mpr positive, fun j => ?_⟩
  rw [normalise, if_pos enough, mul_comm]

section Run

variable {obs : ℕ → Fin kNumTempoStates → ℝ} {n : ℕ} (nonneg : ∀ t < n, ∀ k, 0 ≤ obs t k)
  (enough : ∀ t < n, 1e-12 < ∑ j, viterbi (stateAt smooth initial obs t).prevDelta (obs t) j)

include nonneg enough

theorem prior_nonneg (i : Fin kNumTempoStates) :
    0 ≤ (stateAt smooth initial obs n).prevDelta i := by
  induction n generalizing i with
  | zero => exact zero_le_one
  | succ n ih =>
    have prior := ih (fun t early => nonneg t (early.trans (Nat.lt_succ_self n)))
      fun t early => enough t (early.trans (Nat.lt_succ_self n))
    obtain ⟨factor, scaled⟩ := normalise_of_enough (enough n (Nat.lt_succ_self n))
    have observed := nonneg n (Nat.lt_succ_self n) i
    change 0 ≤ normalise (viterbi (stateAt smooth initial obs n).prevDelta (obs n)) i
    rw [scaled]
    exact mul_nonneg factor.le (mul_nonneg (le_max_left _ _) observed)

theorem prior_eq_best :
    ∃ c > 0, ∀ j, (stateAt smooth initial obs n).prevDelta j = c * best (stepWeight obs) n j := by
  refine scaled_best (x := fun t => (stateAt smooth initial obs t).prevDelta) rfl ?_
  intro t early
  have prior := prior_nonneg (fun t' before => nonneg t' (before.trans early))
    fun t' before => enough t' (before.trans early)
  obtain ⟨factor, scaled⟩ := normalise_of_enough (enough t early)
  refine ⟨_, factor, fun j => ?_⟩
  change normalise (viterbi (stateAt smooth initial obs t).prevDelta (obs t)) j = _
  rw [scaled, viterbi_eq prior (nonneg t early)]
  rfl

end Run

theorem estimates_eq_smooth [KissFft ℝ] {obs : ℕ → Fin kNumTempoStates → ℝ} {n : ℕ}
    (window : ℕ → Fin kOdfLength → ℝ) (heard : ∀ t < n, observed (window t) = obs t) :
    stateAt estimate initial window n = stateAt smooth initial obs n := by
  apply stateAt_related Eq rfl
  intro t early same
  rw [same, estimate_eq_smooth, heard t early]

/-- The states that end a path of the largest product over all paths. -/
def endsBest (obs : ℕ → Fin kNumTempoStates → ℝ) (n : ℕ) : Set (Fin kNumTempoStates) :=
  {k | ∃ s, s n = k ∧ ∀ s', product (stepWeight obs) n s' ≤ product (stepWeight obs) n s}

/-- After `n` estimates, whatever computes the transforms and whatever the windows in which they
observe it, the posterior of a state
is the largest product of the paths that end in it, up to a factor common to all states, and the
tempo is that of the first state in which a path of the largest product ends. -/
theorem tempo_is_best_path [KissFft ℝ] {obs : ℕ → Fin kNumTempoStates → ℝ} {n : ℕ} (some : 1 ≤ n)
    (nonneg : ∀ t < n, ∀ k, 0 ≤ obs t k)
    (enough : ∀ t < n, 1e-12 < ∑ j, viterbi (stateAt smooth initial obs t).prevDelta (obs t) j) :
    (∀ window : ℕ → Fin kOdfLength → ℝ, (∀ t < n, observed (window t) = obs t) →
      stateAt estimate initial window n = stateAt smooth initial obs n) ∧
    (∃ c > 0, ∀ j, ∃ m,
      IsGreatest {x | ∃ s : ℕ → Fin kNumTempoStates, s n = j ∧ product (stepWeight obs) n s = x} m ∧
        (stateAt smooth initial obs n).delta j = c * m) ∧
    ∃ k : Fin kNumTempoStates, IsLeast (endsBest obs n) k ∧
      (stateAt smooth initial obs n).lastBpm = 80 + 2 * (k : ℕ) := by
  refine ⟨fun window heard => estimates_eq_smooth window heard, ?_⟩
  obtain ⟨c, positive, scaled⟩ := prior_eq_best nonneg enough
  obtain ⟨n, rfl⟩ := Nat.exists_eq_add_of_le' some
  have delta : ∀ j, (stateAt smooth initial obs (n + 1)).delta j =
      c * best (stepWeight obs) (n + 1) j := scaled
  have weights : ∀ t < n + 1, ∀ i j, 0 ≤ stepWeight obs t i j := fun t early i j =>
    mul_nonneg (transition_pos i j).le (nonneg t early j)
  refine ⟨⟨c, positive, fun j => ⟨_, isGreatest_best weights j, delta j⟩⟩, ?_⟩
  obtain ⟨most, strict⟩ := argmax_spec (stateAt smooth initial obs (n + 1)).delta
  refine ⟨argmax (stateAt smooth initial obs (n + 1)).delta, ⟨?_, ?_⟩, ?_⟩
  · obtain ⟨s, reaches, score⟩ := exists_best_path (stepWeight obs) (n + 1)
      (argmax (stateAt smooth initial obs (n + 1)).delta)
    refine ⟨s, reaches, fun s' => ?_⟩
    have below := most (s' (n + 1))
    rw [delta, delta] at below
    rw [score]
    exact (product_le_best weights s').trans (le_of_mul_le_mul_left below positive)
  · rintro k ⟨s, rfl, largest⟩
    by_contra before
    have less := strict _ (not_le.mp before)
    rw [delta, delta] at less
    obtain ⟨s', -, score⟩ := exists_best_path (stepWeight obs) (n + 1)
      (argmax (stateAt smooth initial obs (n + 1)).delta)
    have reached := (largest s').trans (product_le_best weights s)
    rw [score] at reached
    exact absurd reached (not_le.mpr (lt_of_mul_lt_mul_left less positive.le))
  · change ((2 * (argmax (stateAt smooth initial obs (n + 1)).delta : ℕ) + 80 : ℕ) : ℝ) = _
    push_cast
    ring

/-! ### A tempo that is observed twice -/

theorem normalise_sum {delta : Fin kNumTempoStates → ℝ} (enough : 1e-12 < ∑ i, delta i) :
    ∑ j, normalise delta j = 1 := by
  obtain ⟨-, scaled⟩ := normalise_of_enough enough
  have nonzero : ∑ i, delta i ≠ 0 := (lt_trans (by norm_num) enough).ne'
  simp only [scaled]
  rw [← Finset.mul_sum, one_div, inv_mul_cancel₀ nonzero]

theorem enough_of_heard {prevDelta obs : Fin kNumTempoStates → ℝ} (prior : ∀ i, 0 ≤ prevDelta i)
    (whole : 1 ≤ ∑ i, prevDelta i) (heard : ∀ j, 1 ≤ obs j) :
    1e-12 < ∑ j, viterbi prevDelta obs j := by
  have stays : ∀ j, prevDelta j * (1 / 30) ≤ viterbi prevDelta obs j := by
    intro j
    rw [viterbi_eq prior fun j => zero_le_one.trans (heard j)]
    refine le_trans ?_ (le_extend _ _ j j)
    refine mul_le_mul_of_nonneg_left ((le_transition j).trans ?_) (prior j)
    exact le_mul_of_one_le_right (transition_pos j j).le (heard j)
  calc (1e-12 : ℝ) < 1 * (1 / 30) := by norm_num
    _ ≤ (∑ i, prevDelta i) * (1 / 30) := mul_le_mul_of_nonneg_right whole (by norm_num)
    _ = ∑ j, prevDelta j * (1 / 30) := Finset.sum_mul _ _ _
    _ ≤ _ := Finset.sum_le_sum fun j _ => stays j

theorem transition_le_self (i j k : Fin kNumTempoStates) :
    (transition i j : ℝ) ≤ transition k k := by
  have stay := transition_pos k k
  rw [transition_self] at stay ⊢
  unfold transition
  dsimp only
  refine mul_le_of_le_one_right stay.le (Real.exp_le_one_iff.mpr ?_)
  refine div_nonpos_of_nonpos_of_nonneg (neg_nonpos.mpr (mul_self_nonneg _)) ?_
  exact mul_nonneg (by norm_num) (mul_self_nonneg _)

/-- The tempo of state 7 is observed twice as clearly as any other. -/
def ahead (_ : ℕ) (k : Fin kNumTempoStates) : ℝ := if (k : ℕ) = 7 then 2.0 else 1

theorem one_le_ahead (t : ℕ) (k : Fin kNumTempoStates) : 1 ≤ ahead t k := by
  unfold ahead
  split_ifs <;> norm_num

theorem ahead_le_two (t : ℕ) (k : Fin kNumTempoStates) : ahead t k ≤ 2 := by
  unfold ahead
  split_ifs <;> norm_num

theorem endsBest_ahead {k : Fin kNumTempoStates} (ends : k ∈ endsBest ahead 2) :
    k = ⟨7, by decide⟩ := by
  by_contra elsewhere
  obtain ⟨s, rfl, largest⟩ := ends
  have stay := transition_pos (⟨7, by decide⟩ : Fin kNumTempoStates) ⟨7, by decide⟩
  set p : ℝ := transition (⟨7, by decide⟩ : Fin kNumTempoStates) ⟨7, by decide⟩
  have stayed : product (stepWeight ahead) 2 (fun _ => ⟨7, by decide⟩) = p * 2 * (p * 2) := by
    rw [product, Finset.prod_range_succ, Finset.prod_range_one, ← two_eq]
    rfl
  have first : stepWeight ahead 0 (s 0) (s 1) ≤ p * 2 :=
    mul_le_mul (transition_le_self _ _ _) (ahead_le_two _ _) (zero_le_one.trans (one_le_ahead _ _))
      stay.le
  have last : stepWeight ahead 1 (s 1) (s 2) ≤ p := by
    have one : ahead 1 (s 2) = 1 := if_neg fun same => elsewhere (Fin.ext same)
    rw [stepWeight, one, mul_one]
    exact transition_le_self _ _ _
  have second : 0 ≤ stepWeight ahead 1 (s 1) (s 2) :=
    mul_nonneg (transition_pos _ _).le (zero_le_one.trans (one_le_ahead _ _))
  have path : product (stepWeight ahead) 2 s ≤ p * 2 * p := by
    rw [product, Finset.prod_range_succ, Finset.prod_range_one]
    exact mul_le_mul first last second (mul_pos stay two_pos).le
  have best := (largest fun _ => ⟨7, by decide⟩).trans path
  rw [stayed] at best
  nlinarith

/-- After two estimates with state 7 ahead the tempo is its own. -/
theorem ahead_tempo_is_best_path :
    (stateAt smooth initial ahead 2).lastBpm = 94 ∧
      ∃ c > 0, ∀ j, ∃ m,
        IsGreatest {x | ∃ s : ℕ → Fin kNumTempoStates,
          s 2 = j ∧ product (stepWeight ahead) 2 s = x} m ∧
          (stateAt smooth initial ahead 2).delta j = c * m := by
  have nonneg : ∀ t < 2, ∀ k, 0 ≤ ahead t k := fun t _ k => zero_le_one.trans (one_le_ahead t k)
  have first : 1e-12 < ∑ j, viterbi (stateAt smooth initial ahead 0).prevDelta (ahead 0) j := by
    refine enough_of_heard (fun _ => zero_le_one) ?_ (one_le_ahead 0)
    change 1 ≤ ∑ i : Fin kNumTempoStates, (1 : ℝ)
    rw [Finset.sum_const, Finset.card_univ, Fintype.card_fin, nsmul_one]
    norm_num [kNumTempoStates]
  have second : 1e-12 < ∑ j, viterbi (stateAt smooth initial ahead 1).prevDelta (ahead 1) j := by
    refine enough_of_heard ?_ (normalise_sum first).ge (one_le_ahead 1)
    refine prior_nonneg (fun t early => nonneg t (early.trans one_lt_two)) fun t early => ?_
    obtain rfl : t = 0 := by omega
    exact first
  have enough : ∀ t < 2,
      1e-12 < ∑ j, viterbi (stateAt smooth initial ahead t).prevDelta (ahead t) j := by
    intro t early
    obtain rfl | rfl : t = 0 ∨ t = 1 := by omega
    · exact first
    · exact second
  obtain ⟨-, posterior, k, least, bpm⟩ := tempo_is_best_path one_le_two nonneg enough
  refine ⟨?_, posterior⟩
  rw [bpm, endsBest_ahead least.1]
  norm_num

end Listeningway.Dsp.CombTempo
