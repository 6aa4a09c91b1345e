/- Listeningway/Dsp/TempoGain
   source: src/audio/dsp/beat/comb_tempo.cpp
   digest: The tempo estimate does not hear how loud the onsets are. -/

import Listeningway.Dsp.BalancedAcf
import Listeningway.Lib.FoldMax
import Listeningway.Lib.StreamRun
import Mathlib.Algebra.BigOperators.Ring.Finset
import Mathlib.Algebra.Order.BigOperators.Group.Finset
import Mathlib.Analysis.Complex.ExponentialBounds

/-!
Up to the observation every step of an estimate is homogeneous: of degree one, the
autocorrelation of degree two. The Viterbi normaliser divides the degree out, unless one of
the two runs falls under its threshold.
-/

set_option autoImplicit false
set_option relaxedAutoImplicit false

namespace Listeningway.Dsp.CombTempo

open Listeningway.Lib.Clamp Listeningway.Lib.FoldMax Listeningway.Lib.StreamRun

/-- Every sample times `c`. -/
def gained {n : ℕ} (c : ℝ) (x : Fin n → ℝ) (i : Fin n) : ℝ := c * x i

/-! ### Homogeneous steps -/

section Steps

variable {n : ℕ} (c : ℝ)

theorem windowMean_gained (x : Fin n → ℝ) (lo hi : ℕ) :
    windowMean (gained c x) lo hi = c * windowMean x lo hi := by
  have sum : (∑ k : Fin n, if lo ≤ (k : ℕ) ∧ (k : ℕ) < hi then gained c x k else 0) =
      c * ∑ k : Fin n, if lo ≤ (k : ℕ) ∧ (k : ℕ) < hi then x k else 0 := by
    rw [Finset.mul_sum]
    apply Finset.sum_congr rfl
    intro k _
    split_ifs
    · rfl
    · exact (mul_zero c).symm
  unfold windowMean
  split_ifs
  · exact (mul_zero c).symm
  · rw [sum, mul_div_assoc]

theorem threshold_gained (x : Fin n → ℝ) (i : ℕ) :
    threshold (gained c x) i = c * threshold x i := by
  unfold threshold
  split_ifs <;> exact windowMean_gained c x _ _

theorem adaptiveThreshold_gained (nonneg : 0 ≤ c) (x : Fin n → ℝ) :
    adaptiveThreshold (gained c x) = gained c (adaptiveThreshold x) := by
  funext i
  change max 0 (c * x i - threshold (gained c x) i) = c * max 0 (x i - threshold x i)
  rw [threshold_gained, ← mul_sub, mul_max_of_nonneg _ _ nonneg, mul_zero]

theorem fft_gained (re im : Fin n → ℝ) (k : Fin n) :
    KissFft.fft n (fun j => (c * re j, c * im j)) k =
      (c * (KissFft.fft n (fun j => (re j, im j)) k).1,
        c * (KissFft.fft n (fun j => (re j, im j)) k).2) := by
  simp only [KissFft.fft, Finset.mul_sum]
  rw [Prod.mk.injEq]
  constructor
  · apply Finset.sum_congr rfl
    intro j _
    ring
  · apply Finset.sum_congr rfl
    intro j _
    ring

theorem fftInverse_gained (re im : Fin n → ℝ) (k : Fin n) :
    KissFft.fftInverse n (fun j => (c * re j, c * im j)) k =
      (c * (KissFft.fftInverse n (fun j => (re j, im j)) k).1,
        c * (KissFft.fftInverse n (fun j => (re j, im j)) k).2) := by
  simp only [KissFft.fftInverse, Finset.mul_sum]
  rw [Prod.mk.injEq]
  constructor
  · apply Finset.sum_congr rfl
    intro j _
    ring
  · apply Finset.sum_congr rfl
    intro j _
    ring

theorem magnitude_gained {g : ℝ} (nonneg : 0 ≤ g) (z : ℝ × ℝ) :
    Real.sqrt (g * z.1 * (g * z.1) + g * z.2 * (g * z.2)) =
      g * Real.sqrt (z.1 * z.1 + z.2 * z.2) := by
  have square : g * z.1 * (g * z.1) + g * z.2 * (g * z.2) =
      g ^ 2 * (z.1 * z.1 + z.2 * z.2) := by ring
  rw [square, Real.sqrt_mul (sq_nonneg g), Real.sqrt_sq nonneg]

theorem balancedAcf_gained (odf : Fin kOdfLength → ℝ) :
    balancedAcf (gained c odf) = gained (c ^ 2) (balancedAcf odf) := by
  have input : (fun k : Fin kFftLength =>
        ((if h : (k : ℕ) < kOdfLength then gained c odf ⟨k, h⟩ else 0, 0) : ℝ × ℝ)) =
      fun k : Fin kFftLength =>
        (c * (if h : (k : ℕ) < kOdfLength then odf ⟨k, h⟩ else 0), c * 0) := by
    funext k
    apply Prod.ext
    · change _ = c * dite _ _ _
      split_ifs
      · rfl
      · exact (mul_zero c).symm
    · exact (mul_zero c).symm
  have power : ∀ z : ℝ × ℝ, (c * z.1 * (c * z.1) + c * z.2 * (c * z.2), (0 : ℝ)) =
      (c ^ 2 * (z.1 * z.1 + z.2 * z.2), c ^ 2 * 0) := by
    intro z
    apply Prod.ext
    · change _ = c ^ 2 * (z.1 * z.1 + z.2 * z.2)
      ring
    · exact (mul_zero _).symm
  funext i
  rw [gained]
  unfold balancedAcf
  dsimp only
  rw [input]
  simp only [fft_gained, power, fftInverse_gained]
  rw [mul_div_assoc', mul_div_assoc']
  congr 2
  exact magnitude_gained (sq_nonneg c) _

theorem combFilterbank_gained (acf : Fin kOdfLength → ℝ) :
    combFilterbank (gained c acf) = gained c (combFilterbank acf) := by
  funext out
  change combFilterbank (gained c acf) out = c * combFilterbank acf out
  unfold combFilterbank
  dsimp only
  split_ifs
  · rw [Finset.mul_sum]
    apply Finset.sum_congr rfl
    intro a _
    rw [Finset.mul_sum]
    apply Finset.sum_congr rfl
    intro s _
    split_ifs
    · rw [gained, mul_assoc, mul_assoc, mul_assoc]
    · exact (mul_zero c).symm
  · exact (mul_zero c).symm

theorem observation_gained (comb : Fin kCombOutputSize → ℝ) :
    observation (gained c comb) = gained c (observation comb) := by
  funext k
  exact (mul_add c _ _).symm

theorem viterbi_gained (prevDelta obs : Fin kNumTempoStates → ℝ) :
    viterbi prevDelta (gained c obs) = gained c (viterbi prevDelta obs) := by
  funext j
  exact mul_left_comm _ c _

theorem normalise_gained {delta : Fin kNumTempoStates → ℝ} (positive : 0 < c)
    (enough : 1e-12 < ∑ i, delta i) (enough' : 1e-12 < ∑ i, gained c delta i) :
    normalise (gained c delta) = normalise delta := by
  have sum : ∑ i, gained c delta i = c * ∑ i, delta i := (Finset.mul_sum _ _ _).symm
  funext j
  unfold normalise
  rw [if_pos enough, if_pos enough', sum, gained]
  have nonzero : (∑ i, delta i) ≠ 0 := by
    intro zero
    rw [zero] at enough
    norm_num at enough
  field_simp

end Steps

/-! ### One estimate and a run of them -/

section Observed

variable {K : Type} [Field K] [LinearOrder K] [FloorRing K] [Cmath K] [KissFft K]

/-- What an estimate observes in a window. -/
def observed (odf : Fin kOdfLength → K) : Fin kNumTempoStates → K :=
  observation (adaptiveThreshold (combFilterbank (balancedAcf (adaptiveThreshold odf))))

/-- The sum the Viterbi step of an estimate is divided by. -/
def normaliser (st : CombTempo K) (odf : Fin kOdfLength → K) : K :=
  ∑ j, viterbi st.prevDelta (observed odf) j

end Observed

/-- The posterior of both objects; everything they report is read off it. -/
structure Agrees (st st' : CombTempo ℝ) : Prop where
  prevDelta : st'.prevDelta = st.prevDelta
  delta : st'.delta = st.delta
  lastBpm : st'.lastBpm = st.lastBpm
  lastBeatPeriodSamples : st'.lastBeatPeriodSamples = st.lastBeatPeriodSamples

section Gained

variable [kiss : KissFft ℝ] (computes : ComputesDft kiss kFftLength)

include computes

theorem observed_gained {c : ℝ} (nonneg : 0 ≤ c) (odf : Fin kOdfLength → ℝ) :
    observed (gained c odf) = gained (c ^ 2) (observed odf) := by
  unfold observed
  rw [adaptiveThreshold_gained c nonneg, balancedAcf_exact computes, balancedAcf_exact computes,
    balancedAcf_gained, combFilterbank_gained, adaptiveThreshold_gained _ (sq_nonneg c),
    observation_gained]

theorem normaliser_gained {c : ℝ} (nonneg : 0 ≤ c) (st : CombTempo ℝ)
    (odf : Fin kOdfLength → ℝ) : normaliser st (gained c odf) = c ^ 2 * normaliser st odf := by
  unfold normaliser
  rw [observed_gained computes nonneg, viterbi_gained, Finset.mul_sum]
  rfl

theorem estimate_agrees {c : ℝ} (positive : 0 < c) {st st' : CombTempo ℝ}
    (before : Agrees st st') (odf : Fin kOdfLength → ℝ) (enough : 1e-12 < normaliser st odf)
    (enough' : 1e-12 < normaliser st' (gained c odf)) :
    Agrees (estimate st odf) (estimate st' (gained c odf)) := by
  have heard : viterbi st'.prevDelta (observed (gained c odf)) =
      gained (c ^ 2) (viterbi st.prevDelta (observed odf)) := by
    rw [before.prevDelta, observed_gained computes positive.le, viterbi_gained]
  have posterior : normalise (viterbi st'.prevDelta (observed (gained c odf))) =
      normalise (viterbi st.prevDelta (observed odf)) := by
    unfold normaliser at enough'
    rw [heard] at enough' ⊢
    exact normalise_gained _ (pow_pos positive 2) enough enough'
  have delta : (estimate st' (gained c odf)).delta = (estimate st odf).delta := posterior
  have bpm : (estimate st' (gained c odf)).lastBpm = (estimate st odf).lastBpm := by
    change ((2 * argmax (estimate st' (gained c odf)).delta + 80 : ℕ) : ℝ) =
      ((2 * argmax (estimate st odf).delta + 80 : ℕ) : ℝ)
    rw [delta]
  refine ⟨delta, delta, bpm, ?_⟩
  change kTempoToLagFactor / max (estimate st' (gained c odf)).lastBpm 1 =
    kTempoToLagFactor / max (estimate st odf).lastBpm 1
  rw [bpm]

/-- Whatever computes the transforms: as long as neither run falls under the threshold of the
normaliser, two objects fed with the same windows, one of them amplified, report the same. -/
theorem tempo_ignores_gain {c : ℝ} (positive : 0 < c) (window : ℕ → Fin kOdfLength → ℝ) (n : ℕ)
    (enough : ∀ k < n, 1e-12 < normaliser (stateAt estimate initial window k) (window k))
    (enough' : ∀ k < n, 1e-12 < normaliser
      (stateAt estimate initial (fun i => gained c (window i)) k) (gained c (window k))) :
    (stateAt estimate initial (fun i => gained c (window i)) n).lastBpm =
        (stateAt estimate initial window n).lastBpm ∧
      (stateAt estimate initial (fun i => gained c (window i)) n).lastBeatPeriodSamples =
        (stateAt estimate initial window n).lastBeatPeriodSamples ∧
      (stateAt estimate initial (fun i => gained c (window i)) n).delta =
        (stateAt estimate initial window n).delta := by
  have agrees : Agrees (stateAt estimate initial window n)
      (stateAt estimate initial (fun i => gained c (window i)) n) := by
    apply stateAt_related Agrees ⟨rfl, rfl, rfl, rfl⟩
    intro k early before
    exact estimate_agrees computes positive before _ (enough k early) (enough' k early)
  exact ⟨agrees.lastBpm, agrees.lastBeatPeriodSamples, agrees.delta⟩

end Gained

/-! ### Two pulses

A window with pulses at its start and 64 samples later is heard: the autocorrelation has its
only other peak there, and the comb at the lag of 80 bpm finds it alone in its neighbourhood.
-/

section Alone

variable {n : ℕ} {x : Fin n → ℝ}

theorem windowMean_nonneg (nonneg : ∀ i, 0 ≤ x i) (lo hi : ℕ) : 0 ≤ windowMean x lo hi := by
  unfold windowMean
  split_ifs
  · exact le_rfl
  · apply div_nonneg _ (Nat.cast_nonneg _)
    apply Finset.sum_nonneg
    intro k _
    split_ifs
    · exact nonneg k
    · exact le_rfl

theorem adaptiveThreshold_nonneg (x : Fin n → ℝ) (i : Fin n) : 0 ≤ adaptiveThreshold x i :=
  le_max_left _ _

theorem adaptiveThreshold_of_zero (nonneg : ∀ i, 0 ≤ x i) {i : Fin n} (zero : x i = 0) :
    adaptiveThreshold x i = 0 := by
  have mean : 0 ≤ threshold x i := by
    unfold threshold
    split_ifs <;> exact windowMean_nonneg nonneg _ _
  unfold adaptiveThreshold
  rw [zero, zero_sub]
  exact max_eq_left (neg_nonpos.mpr mean)

theorem windowMean_alone {lo hi : ℕ} {p : Fin n} (lower : lo ≤ p) (upper : (p : ℕ) < hi)
    (fits : hi ≤ n) (alone : ∀ k : Fin n, lo ≤ k → (k : ℕ) < hi → k ≠ p → x k = 0) :
    windowMean x lo hi = x p / ((hi - lo : ℕ) : ℝ) := by
  unfold windowMean
  rw [min_eq_right fits, if_neg (by omega), Finset.sum_eq_single p]
  · rw [if_pos ⟨lower, upper⟩]
  · intro k _ other
    split_ifs with inside
    · exact alone k inside.1 inside.2 other
    · rfl
  · intro absent
    exact absurd (Finset.mem_univ p) absent

theorem le_adaptiveThreshold_of_alone {lo hi : ℕ} {p : Fin n} (lower : lo ≤ p)
    (upper : (p : ℕ) < hi) (fits : hi ≤ n) (wide : lo + 8 ≤ hi) (nonneg : 0 ≤ x p)
    (alone : ∀ k : Fin n, lo ≤ k → (k : ℕ) < hi → k ≠ p → x k = 0)
    (mean : threshold x p = windowMean x lo hi) : 7 / 8 * x p ≤ adaptiveThreshold x p := by
  have eight : (8 : ℝ) ≤ ((hi - lo : ℕ) : ℝ) := by
    have whole : 8 ≤ hi - lo := by omega
    exact_mod_cast whole
  have small : x p / ((hi - lo : ℕ) : ℝ) ≤ x p / 8 := by
    apply div_le_div_of_nonneg_left nonneg _ eight
    norm_num
  apply le_trans _ (le_max_right _ _)
  rw [mean, windowMean_alone lower upper fits alone]
  linarith

end Alone

theorem rayleigh_nonneg (k : ℕ) : (0 : ℝ) ≤ rayleigh k := by
  apply mul_nonneg
  · apply div_nonneg (Nat.cast_nonneg k)
    exact mul_self_nonneg _
  · exact (Real.exp_pos _).le

theorem balancedAcf_nonneg [KissFft ℝ] (odf : Fin kOdfLength → ℝ) (i : Fin kOdfLength) :
    0 ≤ balancedAcf odf i :=
  div_nonneg (div_nonneg (Real.sqrt_nonneg _) (Nat.cast_nonneg _)) (Nat.cast_nonneg _)

theorem tooth_nonneg {acf : Fin kOdfLength → ℝ} (nonneg : ∀ i, 0 ≤ acf i) (out a idx : ℕ) :
    0 ≤ if h : idx < kOdfLength then
      acf ⟨idx, h⟩ * rayleigh out * (1 / ((2 * a - 1 : ℕ) : ℝ)) else 0 := by
  split_ifs
  · have weight : (0 : ℝ) ≤ 1 / ((2 * a - 1 : ℕ) : ℝ) := one_div_nonneg.mpr (Nat.cast_nonneg _)
    exact mul_nonneg (mul_nonneg (nonneg _) (rayleigh_nonneg _)) weight
  · exact le_rfl

theorem combFilterbank_nonneg {acf : Fin kOdfLength → ℝ} (nonneg : ∀ i, 0 ≤ acf i)
    (out : Fin kCombOutputSize) : 0 ≤ combFilterbank acf out := by
  unfold combFilterbank
  dsimp only
  split_ifs
  · apply Finset.sum_nonneg
    intro a _
    apply Finset.sum_nonneg
    intro s _
    exact tooth_nonneg nonneg _ _ _
  · exact le_rfl

theorem le_combFilterbank {acf : Fin kOdfLength → ℝ} (nonneg : ∀ i, 0 ≤ acf i)
    {out : Fin kCombOutputSize} (lower : 1 ≤ (out : ℕ)) (upper : (out : ℕ) < 127) :
    acf ⟨out, out.2.trans (by decide)⟩ * rayleigh out ≤ combFilterbank acf out := by
  let tooth (a s : ℕ) : ℝ := if h : a * ((out : ℕ) + 1) + s - a < kOdfLength then
    acf ⟨a * ((out : ℕ) + 1) + s - a, h⟩ * rayleigh out * (1 / ((2 * a - 1 : ℕ) : ℝ)) else 0
  have teeth : ∀ a s, 0 ≤ tooth a s := fun a s => tooth_nonneg nonneg _ _ _
  have first : tooth 1 0 = acf ⟨out, out.2.trans (by decide)⟩ * rayleigh out := by
    have idx : 1 * ((out : ℕ) + 1) + 0 - 1 = out := by omega
    have inside : (out : ℕ) < kOdfLength := out.2.trans (by decide)
    change (if h : 1 * ((out : ℕ) + 1) + 0 - 1 < kOdfLength then _ else _) = _
    simp only [idx, dif_pos inside]
    norm_num
  have whole : combFilterbank acf out =
      ∑ a ∈ Finset.Icc 1 kNumHarmonics, ∑ s ∈ Finset.range (2 * a - 1), tooth a s :=
    if_pos ⟨by change 2 ≤ (out : ℕ) + 1; omega, by change (out : ℕ) + 1 ≤ 127; omega⟩
  rw [whole, ← first]
  calc tooth 1 0 = ∑ s ∈ Finset.range (2 * 1 - 1), tooth 1 s := (Finset.sum_range_one _).symm
    _ ≤ _ := Finset.single_le_sum (f := fun a => ∑ s ∈ Finset.range (2 * a - 1), tooth a s)
      (fun a _ => Finset.sum_nonneg fun s _ => teeth a s)
      (Finset.mem_Icc.mpr ⟨le_rfl, by decide⟩)

theorem lagIndex_slowest : ((lagIndex ((2 * (0 : ℕ) + 80 : ℕ) : ℝ) : Fin kCombOutputSize) : ℕ) =
    64 := by
  have lag : roundAway (kTempoToLagFactor / ((2 * (0 : ℕ) + 80 : ℕ) : ℝ)) = 65 := by
    unfold roundAway kTempoToLagFactor
    rw [if_pos (by positivity), Int.floor_eq_iff]
    constructor <;> norm_num
  change (clamp (roundAway _) 1 (kCombOutputSize : ℤ)).toNat - 1 = 64
  rw [lag]
  decide

/-- Pulses at samples 0 and 64. -/
def pulses (j : Fin kOdfLength) : ℝ := if (j : ℕ) = 0 ∨ (j : ℕ) = 64 then 1 else 0

theorem pulses_nonneg (j : Fin kOdfLength) : 0 ≤ pulses j := by
  unfold pulses
  split_ifs
  · exact zero_le_one
  · exact le_rfl

/-- What the first threshold leaves of the pulses. -/
structure Peaked (x : Fin kOdfLength → ℝ) : Prop where
  nonneg : ∀ j, 0 ≤ x j
  zero : ∀ j : Fin kOdfLength, (j : ℕ) ≠ 0 → (j : ℕ) ≠ 64 → x j = 0
  head : ∀ j : Fin kOdfLength, (j : ℕ) = 0 → 7 / 8 ≤ x j
  tail : ∀ j : Fin kOdfLength, (j : ℕ) = 64 → 7 / 8 ≤ x j

theorem peaked_pulses : Peaked (adaptiveThreshold pulses) where
  nonneg := adaptiveThreshold_nonneg pulses
  zero j notHead notTail := by
    apply adaptiveThreshold_of_zero pulses_nonneg
    exact if_neg (by omega)
  head j atHead := by
    have one : pulses j = 1 := if_pos (Or.inl atHead)
    have mean : threshold pulses j = windowMean pulses 0 8 := by
      rw [atHead]
      rfl
    have kept := le_adaptiveThreshold_of_alone (by omega) (by omega) (by decide) le_rfl
      (pulses_nonneg j) (fun k _ below other => if_neg (by omega)) mean
    rwa [one, mul_one] at kept
  tail j atTail := by
    have one : pulses j = 1 := if_pos (Or.inr atTail)
    have mean : threshold pulses j = windowMean pulses 56 71 := by
      rw [atTail]
      rfl
    have kept := le_adaptiveThreshold_of_alone (by omega) (by omega) (by decide) (by omega)
      (pulses_nonneg j) (fun k _ below other => if_neg (by omega)) mean
    rwa [one, mul_one] at kept

section Heard

variable {x : Fin kOdfLength → ℝ} (peaked : Peaked x)

include peaked

theorem padded_nonneg (k : ℕ) : 0 ≤ padded x k := by
  unfold padded
  split_ifs
  · exact peaked.nonneg _
  · exact le_rfl

theorem padded_eq_zero {k : ℕ} (notHead : k ≠ 0) (notTail : k ≠ 64) : padded x k = 0 := by
  unfold padded
  split_ifs with inside
  · exact peaked.zero ⟨k, inside⟩ notHead notTail
  · rfl

theorem balancedAcf_eq_zero {i : Fin kOdfLength} (notZero : (i : ℕ) ≠ 0) (notPeak : (i : ℕ) ≠ 64) :
    balancedAcf x i = 0 := by
  have none : autocorrelation x i = 0 := by
    apply Finset.sum_eq_zero
    intro j _
    by_cases atPeak : (j : ℕ) = 0 ∨ (j : ℕ) = 64
    · rw [padded_eq_zero peaked (by omega) (by omega), mul_zero]
    · rw [peaked.zero j (by omega) (by omega), zero_mul]
  rw [balancedAcf_eq, none, abs_zero, zero_div]

theorem le_balancedAcf {i : Fin kOdfLength} (atPeak : (i : ℕ) = 64) :
    1 / 1000 ≤ balancedAcf x i := by
  have head := peaked.head ⟨0, by decide⟩ rfl
  have tail := peaked.tail ⟨64, by decide⟩ rfl
  have term : 49 / 64 ≤ autocorrelation x i := by
    have nonneg : ∀ j ∈ Finset.univ, 0 ≤ x j * padded x (j + i) := fun j _ =>
      mul_nonneg (peaked.nonneg j) (padded_nonneg peaked _)
    have single := Finset.single_le_sum nonneg (Finset.mem_univ (⟨0, by decide⟩ : Fin kOdfLength))
    have paired : padded x (((⟨0, by decide⟩ : Fin kOdfLength) : ℕ) + i) = x ⟨64, by decide⟩ := by
      rw [atPeak]
      exact padded_of_lt x (by decide)
    rw [paired] at single
    unfold autocorrelation
    nlinarith
  rw [atPeak] at term
  rw [balancedAcf_eq, atPeak, abs_of_nonneg (by linarith)]
  have count : ((kOdfLength - 64 : ℕ) : ℝ) = 448 := by
    norm_num [kOdfLength]
  rw [count, le_div_iff₀ (by norm_num)]
  linarith

theorem combFilterbank_eq_zero {out : Fin kCombOutputSize} (lower : 56 ≤ (out : ℕ))
    (notPeak : (out : ℕ) ≠ 64) : combFilterbank (balancedAcf x) out = 0 := by
  unfold combFilterbank
  dsimp only
  split_ifs
  · apply Finset.sum_eq_zero
    intro a harmonic
    apply Finset.sum_eq_zero
    intro s width
    rw [Finset.mem_Icc] at harmonic
    rw [Finset.mem_range] at width
    split_ifs with inside
    · rw [balancedAcf_eq_zero peaked, zero_mul, zero_mul]
      · change a * ((out : ℕ) + 1) + s - a ≠ 0
        rw [mul_add, mul_one]
        have most : 56 ≤ a * (out : ℕ) := by nlinarith
        omega
      · change a * ((out : ℕ) + 1) + s - a ≠ 64
        rw [mul_add, mul_one]
        rcases eq_or_lt_of_le harmonic.1 with rfl | higher
        · omega
        · have most : 112 ≤ a * (out : ℕ) := by nlinarith
          omega
    · rfl
  · rfl

end Heard

theorem le_rayleigh : (1 : ℝ) / 1000 ≤ rayleigh 64 := by
  have tail : (1 : ℝ) / 9 ≤ Real.exp (-2) := by
    have third : (1 : ℝ) / 3 ≤ Real.exp (-1) := by
      linarith [Real.exp_neg_one_gt_d9]
    have square : Real.exp (-2) = Real.exp (-1) * Real.exp (-1) := by
      rw [← Real.exp_add]
      norm_num
    rw [square]
    nlinarith
  have exponent : Real.exp (-2) ≤
      Real.exp (-(((64 : ℕ) : ℝ) * ((64 : ℕ) : ℝ)) / (2.0 * (kRayleighBeta * kRayleighBeta))) := by
    rw [Real.exp_le_exp]
    norm_num [kRayleighBeta]
  have factor : (1 : ℝ) / 30 ≤ ((64 : ℕ) : ℝ) / (kRayleighBeta * kRayleighBeta) := by
    norm_num [kRayleighBeta]
  calc (1 : ℝ) / 1000 ≤ 1 / 30 * (1 / 9) := by norm_num
    _ ≤ rayleigh 64 := by
      apply mul_le_mul factor (tail.trans exponent) (by norm_num)
      exact le_trans (by norm_num) factor

theorem transition_self (i : Fin kNumTempoStates) :
    transition i i = (1 : ℝ) / (kTransitionSigma * Real.sqrt (2.0 * Real.pi)) := by
  unfold transition
  dsimp only
  rw [sub_self, zero_mul, neg_zero, zero_div]
  change _ * Real.exp 0 = _
  rw [Real.exp_zero, mul_one]
  rfl

theorem le_transition (i : Fin kNumTempoStates) : (1 : ℝ) / 30 ≤ transition i i := by
  have root : Real.sqrt (2.0 * Real.pi) ≤ 4 := by
    rw [Real.sqrt_le_left (by norm_num)]
    have four := Real.pi_le_four
    norm_num
    linarith
  have positive : 0 < Real.sqrt (2.0 * Real.pi) := by
    apply Real.sqrt_pos.mpr
    have pi := Real.pi_pos
    norm_num
    exact pi
  have sigma : (0 : ℝ) < kTransitionSigma ∧ (kTransitionSigma : ℝ) ≤ 6 := by
    constructor <;> norm_num [kTransitionSigma]
  rw [transition_self]
  apply one_div_le_one_div_of_le (mul_pos sigma.1 positive)
  nlinarith

theorem observed_nonneg [KissFft ℝ] (odf : Fin kOdfLength → ℝ) (k : Fin kNumTempoStates) :
    0 ≤ observed odf k :=
  add_nonneg (adaptiveThreshold_nonneg _ _) (adaptiveThreshold_nonneg _ _)

theorem le_observed_pulses : 7 / 8 * (1 / 1000 * (1 / 1000)) ≤
    observed pulses ⟨0, by decide⟩ := by
  have peak : ∀ out : Fin kCombOutputSize, (out : ℕ) = 64 → 7 / 8 * (1 / 1000 * (1 / 1000)) ≤
      adaptiveThreshold (combFilterbank (balancedAcf (adaptiveThreshold pulses))) out := by
    intro out atPeak
    have comb : balancedAcf (adaptiveThreshold pulses) ⟨out, out.2.trans (by decide)⟩ *
        rayleigh out ≤ combFilterbank (balancedAcf (adaptiveThreshold pulses)) out :=
      le_combFilterbank (balancedAcf_nonneg _) (by omega) (by omega)
    have acf := le_balancedAcf peaked_pulses (i := ⟨out, out.2.trans (by decide)⟩) atPeak
    have ray : (1 : ℝ) / 1000 ≤ rayleigh (out : ℕ) := by
      rw [atPeak]
      exact le_rayleigh
    have mean : threshold (combFilterbank (balancedAcf (adaptiveThreshold pulses))) out =
        windowMean (combFilterbank (balancedAcf (adaptiveThreshold pulses))) 56 71 := by
      rw [atPeak]
      rfl
    have kept := le_adaptiveThreshold_of_alone (by omega) (by omega) (by decide) (by omega)
      (combFilterbank_nonneg (balancedAcf_nonneg (adaptiveThreshold pulses)) out)
      (fun k lower _ other => combFilterbank_eq_zero peaked_pulses lower
        fun same => other (Fin.ext (same.trans atPeak.symm))) mean
    nlinarith
  have direct := peak (lagIndex ((2 * (0 : ℕ) + 80 : ℕ) : ℝ)) lagIndex_slowest
  exact direct.trans (le_add_of_nonneg_right (adaptiveThreshold_nonneg _ _))

theorem normaliser_pulses : 1e-12 < normaliser initial pulses := by
  have nonneg : ∀ j, 0 ≤ viterbi (initial : CombTempo ℝ).prevDelta (observed pulses) j :=
    fun j => mul_nonneg (le_max_left _ _) (observed_nonneg pulses j)
  have best : (1 : ℝ) / 30 ≤ max 0 ((List.finRange kNumTempoStates).foldl (fun best i =>
      let v := (initial : CombTempo ℝ).prevDelta i * transition i ⟨0, by decide⟩
      if best < v then v else best) (-1)) := by
    have stay := le_foldl_max (p := fun _ => True)
      (v := fun i => (initial : CombTempo ℝ).prevDelta i * transition i ⟨0, by decide⟩) (-1)
      (List.mem_finRange (⟨0, by decide⟩ : Fin kNumTempoStates)) trivial
    simp only [if_true] at stay
    have one : (1 : ℝ) / 30 ≤ (initial : CombTempo ℝ).prevDelta ⟨0, by decide⟩ *
        transition ⟨0, by decide⟩ ⟨0, by decide⟩ :=
      (le_transition _).trans (one_mul _).ge
    exact one.trans (stay.trans (le_max_right _ _))
  have term := Finset.single_le_sum (fun j _ => nonneg j)
    (Finset.mem_univ (⟨0, by decide⟩ : Fin kNumTempoStates))
  have product : 1 / 30 * (7 / 8 * (1 / 1000 * (1 / 1000))) ≤
      viterbi (initial : CombTempo ℝ).prevDelta (observed pulses) ⟨0, by decide⟩ :=
    mul_le_mul best le_observed_pulses (by norm_num) (le_trans (by norm_num) best)
  refine lt_of_lt_of_le ?_ (product.trans term)
  norm_num

/-- Two pulses, and the same at twice the level. -/
theorem tempo_of_pulses :
    (stateAt estimate initial (fun _ => gained 2 pulses) 1).lastBpm =
        (stateAt estimate initial (fun _ => pulses) 1).lastBpm ∧
      (stateAt estimate initial (fun _ => gained 2 pulses) 1).lastBeatPeriodSamples =
        (stateAt estimate initial (fun _ => pulses) 1).lastBeatPeriodSamples ∧
      (stateAt estimate initial (fun _ => gained 2 pulses) 1).delta =
        (stateAt estimate initial (fun _ => pulses) 1).delta := by
  apply tempo_ignores_gain (computesDft_exact kFftLength) two_pos (fun _ => pulses) 1
  · intro k first
    obtain rfl : k = 0 := by omega
    exact normaliser_pulses
  · intro k first
    obtain rfl : k = 0 := by omega
    change 1e-12 < normaliser initial (gained 2 pulses)
    rw [normaliser_gained (computesDft_exact kFftLength) two_pos.le]
    linarith [normaliser_pulses]

end Listeningway.Dsp.CombTempo
